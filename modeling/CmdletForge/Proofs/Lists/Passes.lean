import Mathlib.Data.List.Forall2

/-!
# CmdletForge.Proofs.Lists.Passes

Lists that are gone through by a function that may fail.

1. A pass has an answer for each element (`mapM_eq_ok_iff`), or it ends at the first element that
   has none, with the failure of that element (`mapM_eq_error_iff`).
2. Of two lists whose elements go together one by one, every element has its partner
   (`exists_right_of_mem`, `exists_left_of_mem`); and two such lists that share a partner go
   together as well (`forall₂_of_left`).
-/

namespace CmdletForge

/-! ## Partners -/

section
variable {α β : Type} {R : α → β → Prop} {xs : List α} {ys : List β}

theorem exists_right_of_mem (h : List.Forall₂ R xs ys) (hx : x ∈ xs) : ∃ y ∈ ys, R x y := by
  obtain ⟨i, hi, rfl⟩ := List.mem_iff_getElem.mp hx
  have hi' : i < ys.length := h.length_eq ▸ hi
  exact ⟨ys[i], List.getElem_mem hi', h.get hi hi'⟩

theorem exists_left_of_mem (h : List.Forall₂ R xs ys) (hy : y ∈ ys) : ∃ x ∈ xs, R x y :=
  exists_right_of_mem h.flip hy

/-- Two lists whose elements go together with those of a third one go together. -/
theorem forall₂_of_left {γ : Type} {S : α → γ → Prop} {T : β → γ → Prop} {zs : List γ}
    (h : List.Forall₂ R xs ys) (h' : List.Forall₂ S xs zs)
    (hpair : ∀ {x y z}, R x y → S x z → T y z) : List.Forall₂ T ys zs := by
  induction h generalizing zs with
  | nil =>
    cases h'
    exact .nil
  | cons hxy _ ih =>
    cases h' with
    | cons hxz hrest => exact .cons (hpair hxy hxz) (ih hrest)

end

/-! ## Passes -/

variable {α β ε : Type} {f : α → Except ε β} {xs : List α}

/-- A pass succeeds exactly when each of its steps does, with the results in order. -/
theorem mapM_eq_ok_iff {ys : List β} :
    xs.mapM f = .ok ys ↔ List.Forall₂ (fun x y => f x = .ok y) xs ys := by
  induction xs generalizing ys with
  | nil => cases ys <;> simp [pure, Except.pure]
  | cons x xs ih =>
    rw [List.mapM_cons]
    cases hx : f x with
    | error error => cases ys <;> simp [bind, Except.bind, hx]
    | ok y =>
      cases hxs : xs.mapM f with
      | error error => cases ys <;> simp [bind, Except.bind, hx, ← ih, hxs]
      | ok ys' => cases ys <;> simp [bind, Except.bind, pure, Except.pure, hx, ← ih, hxs]

/-- A pass of which every step can succeed does. -/
theorem exists_mapM_eq_ok (h : ∀ x ∈ xs, ∃ y, f x = .ok y) : ∃ ys, xs.mapM f = .ok ys := by
  induction xs with
  | nil => exact ⟨[], rfl⟩
  | cons x xs ih =>
    rw [List.forall_mem_cons] at h
    obtain ⟨⟨y, hy⟩, hxs⟩ := h
    obtain ⟨ys, hys⟩ := ih hxs
    exact ⟨y :: ys, mapM_eq_ok_iff.mpr (.cons hy (mapM_eq_ok_iff.mp hys))⟩

/-- The first failure is that of the list. -/
theorem mapM_eq_error (h : ∀ x ∈ xs, ∃ y, f x = .ok y) (hx : f x = .error error)
    (after : List α) : (xs ++ x :: after).mapM f = .error error := by
  obtain ⟨ys, hys⟩ := exists_mapM_eq_ok h
  rw [List.mapM_append, hys, List.mapM_cons, hx]
  rfl

/-- **A pass fails at the first element that fails.** -/
theorem mapM_eq_error_iff : xs.mapM f = .error error ↔
    ∃ before x after, xs = before ++ x :: after ∧ (∀ y ∈ before, ∃ z, f y = .ok z) ∧
      f x = .error error := by
  constructor
  · intro h
    induction xs with
    | nil => contradiction
    | cons x xs ih =>
      rw [List.mapM_cons] at h
      cases hx : f x with
      | error e =>
        rw [hx] at h
        cases h
        exact ⟨[], x, xs, rfl, by simp, hx⟩
      | ok y =>
        have hxs : xs.mapM f = .error error := by
          cases hxs : xs.mapM f with
          | error e => simpa [hx, hxs, bind, Except.bind] using h
          | ok ys => simp [hx, hxs, bind, Except.bind, pure, Except.pure] at h
        obtain ⟨before, x', after, rfl, hbefore, hx'⟩ := ih hxs
        refine ⟨x :: before, x', after, rfl, ?_, hx'⟩
        rw [List.forall_mem_cons]
        exact ⟨⟨y, hx⟩, hbefore⟩
  · rintro ⟨before, x, after, rfl, hbefore, hx⟩
    exact mapM_eq_error hbefore hx after

end CmdletForge
