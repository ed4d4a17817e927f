import CmdletForge.Proofs.Source.Arrays
import CmdletForge.Proofs.Source.Regular

/-!
# CmdletForge.Proofs.Source.Spellings

What stands between the quotes of a literal.

1. A text is *spelled* by simple escapes, and by characters that are neither quotes nor backslashes
   and stand for themselves.  What stands between the quotes of a literal spells its text, whatever
   this is (`spelled_literalBody`): no quote in it ends the literal, and no backslash begins
   anything but a simple escape.
2. A spelling in which nothing ends a line is read as its text by the rules of regular literals
   (`Spelled.readUnits_eq_some`), and any other is not read at all (`Spelled.readUnits_eq_none`).
3. Of the characters that end a line two are escaped, and three stand in a literal as often as in
   its text (`count_literal`).  So a literal is a regular one exactly when its text has none of
   these three, and then its value is the text (`literalLaw`).
-/

namespace CmdletForge.Source

/-! ## Spellings -/

/-- Characters that spell a text. -/
inductive Spelled : (body value : List Char) → Prop
  | nil : Spelled [] []
  | single {c : Char} {body value : List Char} (hquote : c ≠ '"') (hslash : c ≠ '\\')
      (hbody : Spelled body value) : Spelled (c :: body) (c :: value)
  | simple {letter c : Char} {body value : List Char}
      (hletter : simpleEscape? letter = some c.toNat) (hbody : Spelled body value) :
      Spelled ('\\' :: letter :: body) (c :: value)

/-- The letters of a literal are those of simple escapes. -/
theorem simpleEscape?_of_escapeLetter? (h : escapeLetter? c = some letter) :
    simpleEscape? letter = some c.toNat := by
  unfold escapeLetter? at h
  split at h <;> cases h <;> rfl

/-- **Between the quotes of a literal its text is spelled.** -/
theorem spelled_literalBody (cs : List Char) : Spelled (literalBody cs) cs := by
  induction cs with
  | nil => exact .nil
  | cons c cs ih =>
    rw [literalBody, List.flatMap_cons, ← literalBody]
    cases hletter : escapeLetter? c with
    | some letter =>
      rw [literalChar, hletter]
      exact .simple (simpleEscape?_of_escapeLetter? hletter) ih
    | none =>
      obtain ⟨hquote, hslash⟩ := ne_of_escapeLetter?_eq_none hletter
      rw [literalChar, hletter]
      exact .single hquote hslash ih

/-! ## Reading -/

/-- A simple escape has one unit. -/
theorem unitsOf_of_simpleEscape? (h : simpleEscape? letter = some n) : unitsOf n = [n] := by
  unfold simpleEscape? at h
  split at h <;> cases h <;> rfl

/-- An escape of one letter is read as what the letter stands for. -/
theorem readCharacter_simple (h : simpleEscape? letter = some n) (rest : List Char) :
    readCharacter ('\\' :: letter :: rest) = some (unitsOf n, rest) := by
  rw [unitsOf_of_simpleEscape? h, readCharacter]
  unfold readEscape
  split
  · contradiction
  · next heq => cases heq; contradiction
  · next heq => cases heq; contradiction
  · next heq => cases heq; contradiction
  · next heq =>
    cases heq
    rw [h]
    rfl

/-- A character that ends a line is not read. -/
theorem readCharacter_line (h : c ∈ newLines) (rest : List Char) :
    readCharacter (c :: rest) = none := by
  have hslash : '\\' ∉ newLines := by decide +kernel
  unfold readCharacter
  split
  · rfl
  · rfl
  · next heq => cases heq; contradiction
  · next heq =>
    cases heq
    rw [if_pos h]

/-- A literal that cannot be read at one character cannot be read at all. -/
theorem readUnits_of_readCharacter_eq_none (hquote : c ≠ '"')
    (h : readCharacter (c :: cs) = none) : readUnits (c :: cs) = none := by
  rw [readUnits.eq_def]
  split
  · next heq => exact absurd (List.cons.inj heq).1 hquote
  · split
    · rfl
    · next hsome =>
      rw [h] at hsome
      contradiction

namespace Spelled

/-- **A spelling in which nothing ends a line is read as its text.** -/
theorem readUnits_eq_some (h : Spelled body value) (hlines : ∀ c ∈ body, c ∉ newLines)
    (rest : List Char) : readUnits (body ++ '"' :: rest) = some (units value, rest) := by
  induction h with
  | nil => rw [List.nil_append, readUnits, units, List.flatMap_nil]
  | single hquote hslash _ ih =>
    rw [List.forall_mem_cons] at hlines
    rw [List.cons_append, readUnits_of_readCharacter (readCharacter_plain hquote hslash hlines.1 _),
      ih hlines.2]
    rfl
  | simple hletter _ ih =>
    rw [List.forall_mem_cons, List.forall_mem_cons] at hlines
    rw [List.cons_append, List.cons_append,
      readUnits_of_readCharacter (readCharacter_simple hletter _), ih hlines.2.2]
    rfl

/-- **Any other is not read**, whatever follows. -/
theorem readUnits_eq_none (h : Spelled body value) (hline : ∃ c ∈ body, c ∈ newLines)
    (rest : List Char) : readUnits (body ++ rest) = none := by
  induction h with
  | nil => simp at hline
  | @single c body value hquote hslash _ ih =>
    -- Either this character ends the line, or it is read and a later one does.
    by_cases hc : c ∈ newLines
    · exact readUnits_of_readCharacter_eq_none hquote (readCharacter_line hc _)
    · have hbody : ∃ c ∈ body, c ∈ newLines := by simpa [hc] using hline
      rw [List.cons_append, readUnits_of_readCharacter (readCharacter_plain hquote hslash hc _),
        ih hbody]
      rfl
  | @simple letter c body value hletter _ ih =>
    have hslash : '\\' ∉ newLines := by decide +kernel
    have hplain : letter ∉ newLines := fun hmem => by
      simp [simpleEscape?_of_mem_newLines hmem] at hletter
    have hbody : ∃ c ∈ body, c ∈ newLines := by simpa [hslash, hplain] using hline
    rw [List.cons_append, List.cons_append,
      readUnits_of_readCharacter (readCharacter_simple hletter _), ih hbody]
    rfl

end Spelled

/-! ## Ends of lines -/

/-- The rare line ends are line ends. -/
theorem mem_newLines_of_mem_rareNewLines (h : x ∈ rareNewLines) : x ∈ newLines :=
  .tail _ (.tail _ h)

/-- A rare line end is written as it is, and no other character is written with one... -/
theorem count_literalChar (h : x ∈ rareNewLines) (c : Char) :
    (literalChar c).count x = if c = x then 1 else 0 := by
  cases hletter : escapeLetter? c with
  | some letter =>
    have hother : c ≠ x := by
      rintro rfl
      simp [escapeLetter?_of_mem_rareNewLines h] at hletter
    have hslash : '\\' ≠ x := by
      rintro rfl
      revert h
      decide +kernel
    have hplain : letter ≠ x := by
      rintro rfl
      have hsimple := simpleEscape?_of_escapeLetter? hletter
      simp [simpleEscape?_of_mem_newLines (mem_newLines_of_mem_rareNewLines h)] at hsimple
    simp [literalChar, hletter, hslash, hplain, hother]
  | none => simp [literalChar, hletter, List.count_cons]

/-- ...so a literal has as many of them as its text. -/
theorem count_literalBody (h : x ∈ rareNewLines) (cs : List Char) :
    (literalBody cs).count x = cs.count x := by
  induction cs with
  | nil => rfl
  | cons c cs ih =>
    rw [literalBody, List.flatMap_cons, List.count_append, count_literalChar h, ← literalBody, ih,
      List.count_cons, Nat.add_comm]
    simp only [beq_iff_eq]

/-- **Three characters that end a line stand in a literal as often as in its text.** -/
theorem count_literal (h : x ∈ rareNewLines) (s : String) :
    (literal s).toList.count x = s.toList.count x := by
  have hquote : '"' ≠ x := by
    rintro rfl
    revert h
    decide +kernel
  simp [literal, count_literalBody h, hquote]

/-- A line end is one that the generator escapes, or a rare one. -/
theorem mem_newLines_cases (h : x ∈ newLines) : IsLineEnd x ∨ x ∈ rareNewLines := by
  simpa [newLines, IsLineEnd, or_assoc] using h

/-- Nothing between the quotes of a literal ends a line exactly when its text has none of the
three. -/
theorem forall_literalBody_iff (s : String) :
    (∀ c ∈ literalBody s.toList, c ∉ newLines) ↔ ∀ c ∈ s.toList, c ∉ rareNewLines := by
  have hmem : ∀ c ∈ rareNewLines, (c ∈ literalBody s.toList ↔ c ∈ s.toList) := fun c hc => by
    rw [← List.count_pos_iff, count_literalBody hc, List.count_pos_iff]
  constructor
  · intro h c hc hrare
    exact h c ((hmem c hrare).mpr hc) (mem_newLines_of_mem_rareNewLines hrare)
  · intro h c hc hline
    obtain hend | hrare := mem_newLines_cases hline
    · have hliteral : c ∈ (literal s).toList := by simp [literal, hc]
      exact lineEnd_not_mem_literal hend s hliteral
    · exact h c ((hmem c hrare).mp hc) hrare

/-! ## The law of literals -/

/-- The quotes around the inside of a literal. -/
theorem toList_literal_append (s : String) (rest : List Char) :
    (literal s).toList ++ rest = '"' :: (literalBody s.toList ++ '"' :: rest) := by
  simp [literal]

/-- A literal of a text without rare line ends is read back as its units... -/
theorem readRegular_literal_eq_some {v : String} (h : ∀ c ∈ v.toList, c ∉ rareNewLines)
    (rest : List Char) :
    readRegular ((literal v).toList ++ rest) = some (units v.toList, rest) := by
  rw [toList_literal_append, readRegular]
  exact (spelled_literalBody _).readUnits_eq_some ((forall_literalBody_iff v).mpr h) rest

/-- ...and one of a text with them is no literal at all. -/
theorem readRegular_literal_eq_none {v : String} (h : ∃ c ∈ v.toList, c ∈ rareNewLines)
    (rest : List Char) : readRegular ((literal v).toList ++ rest) = none := by
  have hline : ∃ c ∈ literalBody v.toList, c ∈ newLines := by
    simpa using mt (forall_literalBody_iff v).mp (by simpa using h)
  rw [toList_literal_append, readRegular]
  exact (spelled_literalBody _).readUnits_eq_none hline _

/-- What is to be said of a text as a literal. -/
structure LiteralLaw (v : String) : Prop where
  /-- Between two quotes the text is spelled: each other quote and each backslash belongs to a
  simple escape. -/
  spelled : ∃ body, (literal v).toList = '"' :: body ++ ['"'] ∧ Spelled body v.toList
  /-- No line feed and no carriage return stands in the literal... -/
  escaped : ∀ c, IsLineEnd c → c ∉ (literal v).toList
  /-- ...but the other characters that end a line do, as often as in the text. -/
  unescaped : ∀ c ∈ rareNewLines, (literal v).toList.count c = v.toList.count c
  /-- It is one regular literal exactly when there are none of these... -/
  regular_iff : (∃ us, readRegular (literal v).toList = some (us, [])) ↔
    ∀ c ∈ v.toList, c ∉ rareNewLines
  /-- ...and then it has the text as its value and ends where it is meant to end... -/
  value : (∀ c ∈ v.toList, c ∉ rareNewLines) → ∀ rest,
    readRegular ((literal v).toList ++ rest) = some (units v.toList, rest)
  /-- ...while a literal with one of them is none, whatever follows. -/
  broken : (∃ c ∈ v.toList, c ∈ rareNewLines) → ∀ rest,
    readRegular ((literal v).toList ++ rest) = none

/-- **The law of literals.** -/
theorem literalLaw (v : String) : LiteralLaw v := by
  refine ⟨⟨_, String.toList_ofList, spelled_literalBody v.toList⟩,
    fun c hc => lineEnd_not_mem_literal hc v, fun c hc => count_literal hc v, ⟨?_, fun h => ?_⟩,
    readRegular_literal_eq_some, readRegular_literal_eq_none⟩
  · rintro ⟨us, hus⟩ c hc hrare
    have hnone := readRegular_literal_eq_none ⟨c, hc, hrare⟩ []
    rw [List.append_nil, hus] at hnone
    contradiction
  · have hread := readRegular_literal_eq_some h []
    rw [List.append_nil] at hread
    exact ⟨_, hread⟩

/-- A line separator stands unescaped in its literal, which is no regular one. -/
theorem not_regular_lineSeparator :
    literal "\u2028" = "\"\u2028\"" ∧ Char.ofNat 0x2028 ∈ newLines ∧
      ¬ ∃ us rest, readRegular (literal "\u2028").toList = some (us, rest) := by
  have hrare : ∃ c ∈ "\u2028".toList, c ∈ rareNewLines :=
    ⟨Char.ofNat 0x2028, by decide +kernel, by decide +kernel⟩
  have hread := readRegular_literal_eq_none hrare []
  refine ⟨by decide +kernel, by decide +kernel, ?_⟩
  rw [List.append_nil] at hread
  simp [hread]

end CmdletForge.Source
