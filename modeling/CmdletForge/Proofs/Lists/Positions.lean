import Mathlib.Data.List.Induction
import Mathlib.Data.List.Nodup

/-!
# CmdletForge.Proofs.Lists.Positions

Where the elements of a list stand.

1. A place in a list is a split `before ++ x :: after`; of two places the one is in front of the
   other, or they are the same (`append_cons_cases`).
2. `List.eraseDups` keeps the first of equal elements: one more element is there already, or it
   comes to stand at the end (`eraseDups_append_singleton`).
3. `FirstOrder xs ys` says that the elements of `ys` stand as they first stand in `xs`.  So do
   those of `xs.eraseDups` (`firstOrder_eraseDups`), and a list in this order is known by its
   members (`FirstOrder.eq`).
-/

namespace CmdletForge

/-! ## Places -/

/-- Of two places in a list, the one is in front of the other, or they are the same. -/
theorem append_cons_cases {α : Type} {x y : α} {xs xs' ys ys' : List α}
    (h : xs ++ x :: xs' = ys ++ y :: ys') :
    (∃ between, ys = xs ++ x :: between ∧ xs' = between ++ y :: ys') ∨
      (xs = ys ∧ x = y ∧ xs' = ys') ∨
        ∃ between, xs = ys ++ y :: between ∧ ys' = between ++ x :: xs' := by
  rw [List.append_eq_append_iff] at h
  rcases h with ⟨front, rfl, h⟩ | ⟨front, rfl, h⟩
  all_goals
    cases front with
    | nil => simp_all
    | cons z front => simp_all

/-! ## First occurrences -/

variable {α : Type} [BEq α] {xs ys zs : List α}

/-- The elements of `ys` stand in the order in which they first stand in `xs`. -/
def FirstOrder (xs ys : List α) : Prop := ys.Pairwise fun a b => xs.idxOf a < xs.idxOf b

theorem FirstOrder.nodup (h : FirstOrder xs ys) : ys.Nodup := by
  refine List.Pairwise.imp (fun {a b} hab => ?_) h
  rintro rfl
  exact Nat.lt_irrefl _ hab

/-- A part of a list of first occurrences is in order too. -/
theorem FirstOrder.sublist (h : FirstOrder xs ys) (hsub : zs.Sublist ys) : FirstOrder xs zs :=
  List.Pairwise.sublist hsub h

/-- Elements in the order of their first occurrences are known by what they are. -/
theorem FirstOrder.eq (hy : FirstOrder xs ys) (hz : FirstOrder xs zs)
    (h : ∀ a, a ∈ ys ↔ a ∈ zs) : ys = zs := by
  have hperm : ys.Perm zs := (List.perm_ext_iff_of_nodup hy.nodup hz.nodup).mpr h
  exact hperm.eq_of_pairwise (fun _ _ _ _ hab hba => absurd hba (Nat.lt_asymm hab)) hy hz

variable [LawfulBEq α]

/-- One more element, behind the others. -/
theorem eraseDups_append_singleton (xs : List α) (x : α) :
    (xs ++ [x]).eraseDups = if x ∈ xs then xs.eraseDups else xs.eraseDups ++ [x] := by
  rw [List.eraseDups_append]
  by_cases hx : x ∈ xs <;> simp [List.removeAll, List.eraseDups_cons, hx]

/-- **Erasing repeats leaves the first occurrences in their order.** -/
theorem firstOrder_eraseDups (xs : List α) : FirstOrder xs xs.eraseDups := by
  induction xs using List.reverseRecOn with
  | nil => exact List.Pairwise.nil
  | append_singleton xs x ih =>
    have hkept : FirstOrder (xs ++ [x]) xs.eraseDups := by
      refine List.Pairwise.imp_of_mem (fun {a b} ha hb hab => ?_) ih
      rw [List.mem_eraseDups] at ha hb
      rwa [List.idxOf_append_of_mem ha, List.idxOf_append_of_mem hb]
    rw [eraseDups_append_singleton]
    split
    · exact hkept
    · next hx =>
      refine List.pairwise_append.mpr ⟨hkept, List.pairwise_singleton _ _, fun a ha b hb => ?_⟩
      rw [List.mem_eraseDups] at ha
      rw [List.mem_singleton.mp hb, List.idxOf_append_of_mem ha,
        List.idxOf_append_of_notMem hx]
      exact Nat.lt_add_right _ (List.idxOf_lt_length_of_mem ha)

theorem nodup_eraseDups (xs : List α) : xs.eraseDups.Nodup := (firstOrder_eraseDups xs).nodup

end CmdletForge
