import CmdletForge.Source.Literal

/-!
# CmdletForge.Proofs.Source.Literals

String literals, read back.

A letter behind a backslash stands for the character that it was put there for, and a character
that is not escaped is neither the quote nor the backslash.  So the reader stops at the quote that
ends the literal, whatever follows it.
-/

namespace CmdletForge.Source

/-- A letter stands for the character that it was written for. -/
theorem escaped?_of_escapeLetter? (h : escapeLetter? c = some letter) :
    escaped? letter = some c := by
  unfold escapeLetter? at h
  split at h <;> cases h <;> rfl

/-- A character without an escape of its own neither ends a literal nor begins an escape. -/
theorem ne_of_escapeLetter?_eq_none (h : escapeLetter? c = none) : c ≠ '"' ∧ c ≠ '\\' := by
  constructor <;> rintro rfl <;> contradiction

/-- A character is read back, however it is written. -/
theorem readBody_literalChar (c : Char) (rest : List Char) :
    readBody (literalChar c ++ rest) = (readBody rest).map fun (cs, after) => (c :: cs, after) := by
  cases hletter : escapeLetter? c with
  | some letter =>
    rw [literalChar, hletter]
    simp only [List.cons_append, List.nil_append, readBody, escaped?_of_escapeLetter? hletter]
    cases readBody rest <;> rfl
  | none =>
    obtain ⟨hquote, hslash⟩ := ne_of_escapeLetter?_eq_none hletter
    rw [literalChar, hletter, List.singleton_append,
      readBody.eq_4 c rest hquote fun _ _ hc _ => hslash hc]
    cases readBody rest <;> rfl

/-- The inside of a literal is read up to the quote behind it, and nothing is taken of what
follows. -/
theorem readBody_literalBody (cs rest : List Char) :
    readBody (literalBody cs ++ '"' :: rest) = some (cs, rest) := by
  induction cs with
  | nil => rfl
  | cons c cs ih =>
    rw [literalBody, List.flatMap_cons, List.append_assoc, readBody_literalChar, ← literalBody, ih]
    rfl

/-- **A literal is read back**, and reading stops where it ends. -/
theorem readLiteral_literal (s : String) (rest : List Char) :
    readLiteral ((literal s).toList ++ rest) = some (s.toList, rest) := by
  rw [literal, String.toList_ofList, List.cons_append, List.cons_append, List.append_assoc]
  exact readBody_literalBody s.toList rest

end CmdletForge.Source
