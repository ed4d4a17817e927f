import Mathlib.Data.List.Basic
import CmdletForge.Proofs.Source.Literals
import CmdletForge.Proofs.Source.Names

/-!
# CmdletForge.Proofs.Source.Arrays

String literals with commas between them, read back.

1. A literal has no line end in it, whatever it stands for (`lineEnd_not_mem_literal`).
2. `readLiterals` reads one literal after the other, as long as a comma and a space follow.  What
   is read of the literals of some texts are these texts, in order, and reading stops behind the
   last one (`readLiterals_separated`).
-/

namespace CmdletForge.Source

/-! ## Line ends -/

/-- The characters that end a line of the file that a literal stands in. -/
def IsLineEnd (c : Char) : Prop := c = '\n' ∨ c = '\r'

/-- A line end in a text is written as an escape, so a literal keeps to one line. -/
theorem lineEnd_not_mem_literalChar (h : IsLineEnd x) (c : Char) : x ∉ literalChar c := by
  cases hletter : escapeLetter? c with
  | some letter =>
    have hplain : letter ≠ '\n' ∧ letter ≠ '\r' := by
      unfold escapeLetter? at hletter
      split at hletter <;> cases hletter <;> decide
    rw [literalChar, hletter]
    rcases h with rfl | rfl
    · simp [Ne.symm hplain.1]
    · simp [Ne.symm hplain.2]
  | none =>
    rw [literalChar, hletter, List.mem_singleton]
    rintro rfl
    rcases h with rfl | rfl <;> contradiction

/-- **A literal is of one line.** -/
theorem lineEnd_not_mem_literal (h : IsLineEnd x) (s : String) : x ∉ (literal s).toList := by
  have hquote : x ≠ '"' := by rcases h with rfl | rfl <;> decide
  simp [literal, literalBody, hquote, lineEnd_not_mem_literalChar h]

/-! ## Lists of literals -/

/-- Reading the inside of a literal gives back no more than there was... -/
theorem length_le_of_readBody (h : readBody cs = some (v, rest)) : rest.length ≤ cs.length := by
  induction cs using readBody.induct generalizing v with
  | case1 => contradiction
  | case2 cs =>
    obtain ⟨-, rfl⟩ : [] = v ∧ cs = rest := by simpa [readBody] using h
    exact Nat.le_succ _
  | case3 letter cs ih =>
    obtain ⟨c, -, h⟩ := Option.bind_eq_some_iff.mp h
    obtain ⟨⟨us, after⟩, hcs, heq⟩ := Option.bind_eq_some_iff.mp h
    cases heq
    exact Nat.le_succ_of_le (Nat.le_succ_of_le (ih hcs))
  | case4 c cs hquote hslash ih =>
    rw [readBody.eq_4 c cs hquote hslash] at h
    obtain ⟨⟨us, after⟩, hcs, heq⟩ := Option.bind_eq_some_iff.mp h
    cases heq
    exact Nat.le_succ_of_le (ih hcs)

/-- ...and reading a literal takes its quotes away at least.  This is why reading several ends. -/
theorem length_lt_of_readLiteral (h : readLiteral cs = some (v, rest)) :
    rest.length < cs.length := by
  unfold readLiteral at h
  split at h
  · exact Nat.lt_succ_of_le (length_le_of_readBody h)
  · contradiction

theorem length_le_of_dropPrefix? {front cs rest : List Char}
    (h : cs.dropPrefix? front = some rest) : rest.length ≤ cs.length := by
  obtain ⟨_, rfl, -⟩ := List.dropPrefix?_eq_some_iff.mp h
  simp

/-- Reads a literal at the front, and those that follow behind commas: what they stand for, and
what follows the last one. -/
def readLiterals (cs : List Char) : Option (List (List Char) × List Char) :=
  match h : readLiteral cs with
  | none => none
  | some (v, rest) =>
    have := length_lt_of_readLiteral h
    match hcomma : rest.dropPrefix? ", ".toList with
    | none => some ([v], rest)
    | some next =>
      have := length_le_of_dropPrefix? hcomma
      (readLiterals next).map fun (vs, after) => (v :: vs, after)
termination_by cs.length

/-- Behind a comma another literal is read... -/
theorem readLiterals_of_comma (h : readLiteral cs = some (v, ", ".toList ++ rest)) :
    readLiterals cs = (readLiterals rest).map fun (vs, after) => (v :: vs, after) := by
  have hcomma : (", ".toList ++ rest).dropPrefix? ", ".toList = some rest :=
    List.dropPrefix?_append_of_beq rest (beq_self_eq_true _)
  rw [readLiterals]
  split
  next hnone => simp [h] at hnone
  next hsome =>
    cases h.symm.trans hsome
    split
    next hnone => exact absurd (hcomma.symm.trans hnone) (Option.some_ne_none rest)
    next hsome =>
      cases hcomma.symm.trans hsome
      rfl

/-- ...and without one the list is at its end. -/
theorem readLiterals_of_end (h : readLiteral cs = some (v, rest))
    (hend : rest.dropPrefix? ", ".toList = none) : readLiterals cs = some ([v], rest) := by
  rw [readLiterals]
  split
  next hnone => simp [h] at hnone
  next hsome =>
    cases h.symm.trans hsome
    split
    next => rfl
    next hsome => exact absurd (hend.symm.trans hsome) (Option.some_ne_none _).symm

/-- **The literals of some texts are read back**, each of them in its place. -/
theorem readLiterals_separated (v : String) (vs : List String) {rest : List Char}
    (hend : rest.dropPrefix? ", ".toList = none) :
    readLiterals
        ((Code.separated ", " ((v :: vs).map fun x => [.literal x])).print.toList ++ rest) =
      some ((v :: vs).map String.toList, rest) := by
  induction vs generalizing v with
  | nil =>
    have hprint : (Code.separated ", " ([v].map fun x => [.literal x])).print = literal v :=
      String.append_empty
    rw [hprint, readLiterals_of_end (readLiteral_literal v rest) hend]
    rfl
  | cons w vs ih =>
    have hprint : (Code.separated ", " ((v :: w :: vs).map fun x => [.literal x])).print =
        literal v ++ (", " ++
          (Code.separated ", " ((w :: vs).map fun x => [.literal x])).print) := by
      rfl
    have hread := readLiteral_literal v (", ".toList ++
      ((Code.separated ", " ((w :: vs).map fun x => [.literal x])).print.toList ++ rest))
    rw [hprint, String.toList_append, String.toList_append, List.append_assoc, List.append_assoc,
      readLiterals_of_comma hread, ih]
    rfl

end CmdletForge.Source
