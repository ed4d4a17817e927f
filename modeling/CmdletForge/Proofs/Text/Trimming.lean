import Mathlib.Data.List.TakeWhile
import CmdletForge.Text.Basic

/-!
# CmdletForge.Proofs.Text.Trimming

Texts without the blanks at their ends.

1. Trimming takes blanks away and nothing else: the characters that are not blank stay
   (`letters_trimChars`), and blanks around a text do not count (`trimChars_append`).
2. The lines of a text, trimmed, are made of its characters without line feeds (`mem_of_mem_line`).
-/

namespace CmdletForge.Text

/-- All characters are blank. -/
def IsBlank (cs : List Char) : Prop := ∀ c ∈ cs, isBlank c = true

instance : DecidablePred IsBlank := fun cs => List.decidableBAll _ cs

/-- How many characters are not blank. -/
def letters (cs : List Char) : Nat := cs.countP fun c => !isBlank c

theorem letters_append (xs ys : List Char) : letters (xs ++ ys) = letters xs + letters ys :=
  List.countP_append

/-- A text without letters is blank. -/
theorem letters_eq_zero_iff {cs : List Char} : letters cs = 0 ↔ IsBlank cs := by
  simp [letters, IsBlank, List.countP_eq_zero]

/-- The blanks in front are no letters. -/
theorem letters_trimStart (cs : List Char) : letters (trimStart cs) = letters cs := by
  have hfront : letters (cs.takeWhile isBlank) = 0 :=
    letters_eq_zero_iff.mpr fun c hc => List.mem_takeWhile_imp hc
  calc letters (trimStart cs)
    _ = letters (cs.takeWhile isBlank) + letters (trimStart cs) := by rw [hfront, Nat.zero_add]
    _ = letters cs := by rw [← letters_append, trimStart, List.takeWhile_append_dropWhile]

theorem letters_reverse (cs : List Char) : letters cs.reverse = letters cs :=
  List.countP_reverse

/-- **Trimming keeps the letters.** -/
theorem letters_trimChars (cs : List Char) : letters (trimChars cs) = letters cs := by
  show letters (trimStart (trimStart cs).reverse).reverse = _
  rw [letters_reverse, letters_trimStart, letters_reverse, letters_trimStart]

/-- Nothing is left of a blank text only. -/
theorem trimChars_eq_nil_iff {cs : List Char} : trimChars cs = [] ↔ IsBlank cs := by
  constructor
  · intro h
    rw [← letters_eq_zero_iff, ← letters_trimChars, h]
    rfl
  · intro h
    have hstart : trimStart cs = [] := List.dropWhile_eq_nil_iff.mpr h
    rw [trimChars, hstart]
    rfl

theorem mem_of_mem_trimChars (h : c ∈ trimChars cs) : c ∈ cs := by
  rw [trimChars, trimEnd, List.mem_reverse] at h
  have hstart := List.mem_reverse.mp ((List.dropWhile_sublist isBlank).subset h)
  exact (List.dropWhile_sublist isBlank).subset hstart

/-- What is left does not end with a blank. -/
theorem not_isBlank_of_getLast?_trimChars (h : (trimChars cs).getLast? = some c) :
    isBlank c = false := by
  have hnot := List.head?_dropWhile_not isBlank (trimStart cs).reverse
  rw [trimChars, trimEnd, List.getLast?_reverse] at h
  rwa [h] at hnot

/-- Blanks at the end do not count. -/
theorem trimEnd_append (cs : List Char) {back : List Char} (hback : IsBlank back) :
    trimEnd (cs ++ back) = trimEnd cs := by
  have hblank : ∀ c ∈ back.reverse, isBlank c = true := fun c hc => hback c (List.mem_reverse.mp hc)
  rw [trimEnd, trimEnd, List.reverse_append, List.dropWhile_append_of_pos hblank]

/-- **Blanks around a text do not count.** -/
theorem trimChars_append {front back : List Char} (hfront : IsBlank front) (cs : List Char)
    (hback : IsBlank back) : trimChars (front ++ cs ++ back) = trimChars cs := by
  have hstart : trimStart (front ++ cs ++ back) = trimStart (cs ++ back) := by
    rw [trimStart, List.append_assoc, List.dropWhile_append_of_pos hfront]
    rfl
  have hend : trimEnd (trimStart (cs ++ back)) = trimEnd (trimStart cs) := by
    rw [trimStart, trimStart, List.dropWhile_append]
    split
    next hempty =>
      have hnil : back.dropWhile isBlank = [] := List.dropWhile_eq_nil_iff.mpr hback
      rw [hnil, List.isEmpty_iff.mp hempty]
    next => exact trimEnd_append _ hback
  rw [trimChars, hstart, hend, trimChars]

/-! ## Characters of texts and lines -/

/-- A text is read character by character.  With `rfl` for the equation, a text that is written
out is not taken apart into bytes. -/
theorem forall_mem_toList {P : Char → Prop} [DecidablePred P] {s : String}
    (hs : s = String.ofList cs) (h : (cs.all fun c => P c) = true) : ∀ c ∈ s.toList, P c := by
  rw [hs, String.toList_ofList]
  simpa using h

theorem forall_mem_toList_append {P : Char → Prop} {a b : String} (ha : ∀ c ∈ a.toList, P c)
    (hb : ∀ c ∈ b.toList, P c) : ∀ c ∈ (a ++ b).toList, P c := by
  rw [String.toList_append, List.forall_mem_append]
  exact ⟨ha, hb⟩

/-- What holds of the characters of a text but for the line feeds holds in its lines. -/
theorem forall_mem_linesFrom {P : Char → Prop} (hacc : ∀ c ∈ acc, P c)
    (hcs : ∀ c ∈ cs, c ≠ '\n' → P c) : ∀ line ∈ linesFrom acc cs, ∀ c ∈ line, P c := by
  induction acc, cs using linesFrom.induct with
  | case1 acc hempty => simp [linesFrom, hempty]
  | case2 acc hempty => simpa [linesFrom, hempty] using hacc
  | case3 acc cs ih =>
    have hdrop : ∀ c ∈ (dropReturn acc).reverse, P c := by
      intro c hc
      refine hacc c ?_
      rw [List.mem_reverse] at hc
      unfold dropReturn at hc
      split at hc
      · exact .tail _ hc
      · exact hc
    rw [linesFrom, List.forall_mem_cons]
    exact ⟨hdrop, ih (by simp) (List.forall_mem_cons.mp hcs).2⟩
  | case4 acc c cs hc ih =>
    rw [List.forall_mem_cons] at hcs
    rw [linesFrom.eq_3 acc c cs hc]
    exact ih (List.forall_mem_cons.mpr ⟨hcs.1 hc, hacc⟩) hcs.2

/-- A line of a text is made of its characters, without line feeds. -/
theorem mem_of_mem_line {s : String} (hline : line ∈ lines s)
    (hc : c ∈ (trim line).toList) : c ∈ s.toList ∧ c ≠ '\n' := by
  have hlines : ∀ l ∈ linesFrom [] s.toList, ∀ c ∈ l, c ∈ s.toList ∧ c ≠ '\n' :=
    forall_mem_linesFrom (by simp) fun c hc hfeed => ⟨hc, hfeed⟩
  obtain ⟨l, hl, rfl⟩ := List.mem_map.mp hline
  rw [trim, String.toList_ofList, String.toList_ofList] at hc
  exact hlines l hl c (mem_of_mem_trimChars hc)

end CmdletForge.Text
