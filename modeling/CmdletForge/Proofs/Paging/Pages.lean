import Mathlib.Data.List.Induction
import CmdletForge.Proofs.Paging.Rounds

/-!
# CmdletForge.Proofs.Paging.Pages

The pages of a run.

1. `Answers pages failure` says what the service answers in a whole run: the pages, and then
   the failure if there is one.  A run has at most one such list (`Answers.unique`).
2. `headAfter pages` is where the loop would stand behind some pages, whoever gave them.  Where
   it does come round, it stands behind the pages that were answered so far
   (`exists_pages_of_headAt?`), so what holds of `headAfter` by induction on the pages holds
   at every head of every run.
-/

namespace CmdletForge.Paging

variable {α : Type}

namespace Setup

variable (v : Setup α)

/-! ## Answers -/

/-- What the service answers to the fetch after `k` pages, if there is one. -/
def answerAt? (k : Nat) : Option (Except String (Page α)) := (v.exchangeAt? k).map (·.answer)

/-- The fetches of the run answer the pages `pages`, then `failure` if there is one, and there
are no others. -/
def Answers (pages : List (Page α)) (failure : Option String) : Prop :=
  ∀ k, v.answerAt? k = (pages.map .ok ++ failure.toList.map .error)[k]?

/-- A round is answered when the run gets there and is not cancelled. -/
theorem answerAt?_eq_some_iff :
    v.answerAt? k = some a ↔
      ∃ h, v.headAt? k = some h ∧ v.cancelled h.before = false ∧ (v.exchange h).answer = a := by
  rw [answerAt?, Option.map_eq_some_iff]
  constructor
  · rintro ⟨x, hx, rfl⟩
    obtain ⟨h, hh, hc, rfl⟩ := v.exchangeAt?_eq_some_iff.mp hx
    exact ⟨h, hh, hc, rfl⟩
  · rintro ⟨h, hh, hc, rfl⟩
    exact ⟨_, v.exchangeAt?_eq_some_iff.mpr ⟨h, hh, hc, rfl⟩, rfl⟩

/-- Without an answer there is no further round. -/
theorem headAt?_succ_eq_none (h : v.answerAt? k = none) : v.headAt? (k + 1) = none := by
  by_contra hsome
  obtain ⟨h', hh'⟩ := Option.ne_none_iff_exists'.mp hsome
  obtain ⟨h₀, p, hh, hc, ha, -⟩ := v.headAt?_succ_eq_some_iff.mp hh'
  rw [v.answerAt?_eq_some_iff.mpr ⟨h₀, hh, hc, ha⟩] at h
  contradiction

theorem answerAt?_eq_none_of_headAt? (h : v.headAt? j = none) (hjk : j ≤ k) :
    v.answerAt? k = none := by
  rw [answerAt?, exchangeAt?, v.headAt?_eq_none_of_le h hjk]
  rfl

/-- The answers of a run are a list when they are as far as it goes, and there is no more. -/
theorem answerAt?_eq_getElem? (l : List (Except String (Page α)))
    (hl : ∀ i < l.length, v.answerAt? i = l[i]?) (hend : v.answerAt? l.length = none) (k : Nat) :
    v.answerAt? k = l[k]? := by
  rcases Nat.lt_trichotomy k l.length with hlt | rfl | hlt
  · exact hl k hlt
  · rw [hend, List.getElem?_eq_none (Nat.le_refl _)]
  · rw [v.answerAt?_eq_none_of_headAt? (v.headAt?_succ_eq_none hend) hlt,
      List.getElem?_eq_none (Nat.le_of_lt hlt)]

/-- The answers up to the end, put together from the rounds. -/
theorem answers_of_end {pages : List (Page α)} {failure : Option String}
    (hpages : ∀ i < pages.length, v.answerAt? i = pages[i]?.map .ok)
    (hfailure : ∀ reason, failure = some reason → v.answerAt? pages.length = some (.error reason))
    (hend : v.answerAt? (pages.length + failure.toList.length) = none) :
    v.Answers pages failure := by
  refine v.answerAt?_eq_getElem? _ (fun i hi => ?_) (by simpa using hend)
  rcases Nat.lt_or_ge i pages.length with hlt | hge
  · rw [hpages i hlt, List.getElem?_append_left (by simpa using hlt), List.getElem?_map]
  · cases failure with
    | none => simp at hi; omega
    | some reason =>
        obtain rfl : i = pages.length := by simp at hi; omega
        rw [hfailure reason rfl]
        simp

/-- A run has one list of answers. -/
theorem Answers.unique {pages pages' : List (Page α)} {failure failure' : Option String}
    (h : v.Answers pages failure) (h' : v.Answers pages' failure') :
    pages = pages' ∧ failure = failure' := by
  have hlist : pages.map Except.ok ++ failure.toList.map Except.error =
      pages'.map Except.ok ++ failure'.toList.map Except.error :=
    List.ext_getElem? fun k => (h k).symm.trans (h' k)
  clear h h'
  induction pages generalizing pages' with
  | nil => cases pages' <;> cases failure <;> cases failure' <;> simp_all
  | cons p rest ih =>
      cases pages' with
      | nil => cases failure' <;> simp_all
      | cons p' rest' =>
          simp only [List.map_cons, List.cons_append, List.cons.injEq, Except.ok.injEq] at hlist
          obtain ⟨rfl, rfl⟩ := ih hlist.2
          exact ⟨by rw [hlist.1], rfl⟩

/-! ## Pages -/

/-- Where the loop would stand behind the pages `pages`. -/
def headAfter (pages : List (Page α)) : Head α :=
  pages.foldl (Head.next v.options v.blank) (.first v.options v.before)

@[simp] theorem headAfter_nil : v.headAfter [] = .first v.options v.before := rfl

@[simp] theorem headAfter_append_singleton (pages : List (Page α)) (p : Page α) :
    v.headAfter (pages ++ [p]) = (v.headAfter pages).next v.options v.blank p := by
  rw [headAfter, List.foldl_append]
  rfl

/-- **The loop stands behind the pages that were answered**, and each of them let it go on. -/
theorem exists_pages_of_headAt? (hh : v.headAt? k = some h) :
    ∃ pages, pages.length = k ∧ h = v.headAfter pages ∧ (∀ p ∈ pages, GoesOn v.options p) ∧
      ∀ i < k, v.answerAt? i = pages[i]?.map .ok := by
  induction k generalizing h with
  | zero => exact ⟨[], rfl, by simpa [headAt?] using hh.symm, by simp, by simp⟩
  | succ k ih =>
      obtain ⟨h₀, p, hh₀, hc, ha, hg, rfl⟩ := v.headAt?_succ_eq_some_iff.mp hh
      obtain ⟨pages, rfl, rfl, hgo, hanswers⟩ := ih hh₀
      refine ⟨pages ++ [p], by simp, by simp, ?_, fun i hi => ?_⟩
      · simpa [or_imp, forall_and, hg] using hgo
      · rcases Nat.lt_or_eq_of_le (Nat.le_of_lt_succ hi) with hlt | rfl
        · rw [hanswers i hlt, List.getElem?_append_left hlt]
        · rw [v.answerAt?_eq_some_iff.mpr ⟨_, hh₀, hc, ha⟩]
          simp

end Setup

end CmdletForge.Paging
