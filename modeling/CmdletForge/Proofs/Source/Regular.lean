import CmdletForge.Json.Quote
import CmdletForge.Proofs.Source.Literals

/-!
# CmdletForge.Proofs.Source.Regular

Regular string literals of C#, as the language defines them.

1. `readRegular` reads a literal from the front of a text.  Its value is a list of UTF-16 code
   units.  A backslash begins a simple escape, an `x` with one to four hexadecimal digits, a `u`
   with four or a `U` with eight; none of the five characters that end a line may stand in it.
2. An escape has fewer units than characters.  So a literal that is read as the very text between
   its quotes has no escape in it, and no quote (`readRegular_bare_iff`).
3. A text that is escaped before it is quoted is read back, unless it has one of the three
   characters that end a line and are not escaped (`readRegular_literal_iff`).
-/

namespace CmdletForge.Source

/-! ## Characters and units -/

/-- The characters that end a line and have no escape of one letter... -/
def rareNewLines : List Char := [Char.ofNat 0x85, Char.ofNat 0x2028, Char.ofNat 0x2029]

/-- ...and all that end a line. -/
def newLines : List Char := '\n' :: '\r' :: rareNewLines

/-- The UTF-16 code units of the character with a number. -/
def unitsOf (n : Nat) : List Nat :=
  if n < 0x10000 then [n] else [0xD800 + (n - 0x10000) / 0x400, 0xDC00 + (n - 0x10000) % 0x400]

/-- The UTF-16 code units of a text. -/
def units (cs : List Char) : List Nat := cs.flatMap fun c => unitsOf c.toNat

/-! ## Reading -/

/-- The unit that a letter behind a backslash stands for. -/
def simpleEscape? : Char → Option Nat
  | '\'' => some 0x27
  | '"' => some 0x22
  | '\\' => some 0x5C
  | '0' => some 0x00
  | 'a' => some 0x07
  | 'b' => some 0x08
  | 'f' => some 0x0C
  | 'n' => some 0x0A
  | 'r' => some 0x0D
  | 't' => some 0x09
  | 'v' => some 0x0B
  | _ => none

/-- The hexadecimal digits at the front, at most `most` of them, and what follows them. -/
def takeDigits : (most : Nat) → List Char → List Nat × List Char
  | 0, cs => ([], cs)
  | _ + 1, [] => ([], [])
  | most + 1, c :: cs =>
    match Json.hexValue? c with
    | none => ([], c :: cs)
    | some d => (d :: (takeDigits most cs).1, (takeDigits most cs).2)

/-- The number of hexadecimal digits. -/
def numberOf (digits : List Nat) : Nat := digits.foldl (fun n d => 16 * n + d) 0

/-- Reads an escape behind its backslash: its units, and what follows it. -/
def readEscape : List Char → Option (List Nat × List Char)
  | [] => none
  | 'x' :: cs =>
    let (digits, rest) := takeDigits 4 cs
    if digits.isEmpty then none else some ([numberOf digits], rest)
  | 'u' :: cs =>
    let (digits, rest) := takeDigits 4 cs
    if digits.length = 4 then some ([numberOf digits], rest) else none
  | 'U' :: cs =>
    let (digits, rest) := takeDigits 8 cs
    if digits.length = 8 ∧ numberOf digits ≤ 0x10FFFF then
      some (unitsOf (numberOf digits), rest)
    else none
  | c :: cs => (simpleEscape? c).map fun unit => ([unit], cs)

/-- Reads a character of a literal, or an escape: its units, and what follows it. -/
def readCharacter : List Char → Option (List Nat × List Char)
  | [] => none
  | '"' :: _ => none
  | '\\' :: cs => readEscape cs
  | c :: cs => if c ∈ newLines then none else some (unitsOf c.toNat, cs)

/-! ### What a character takes -/

theorem eq_none_of_mem {α : Type} {f : Char → Option α} {cs : List Char}
    (h : (cs.all fun c => (f c).isNone) = true) (hc : c ∈ cs) : f c = none :=
  Option.isNone_iff_eq_none.mp (List.all_eq_true.mp h c hc)

/-- No digit ends a line... -/
theorem hexValue?_of_mem_newLines (h : c ∈ newLines) : Json.hexValue? c = none :=
  eq_none_of_mem (by decide +kernel) h

/-- ...and neither does a letter behind a backslash. -/
theorem simpleEscape?_of_mem_newLines (h : c ∈ newLines) : simpleEscape? c = none :=
  eq_none_of_mem (by decide +kernel) h

/-- The line ends that the generator does not know of have no escape. -/
theorem escapeLetter?_of_mem_rareNewLines (h : c ∈ rareNewLines) : escapeLetter? c = none :=
  eq_none_of_mem (by decide +kernel) h

/-- Digits are taken from the front, and none of them ends a line. -/
theorem exists_of_takeDigits (most : Nat) (cs : List Char) :
    ∃ taken, cs = taken ++ (takeDigits most cs).2 ∧
      taken.length = (takeDigits most cs).1.length ∧ ∀ c ∈ taken, c ∉ newLines := by
  induction most generalizing cs with
  | zero => exact ⟨[], rfl, rfl, by simp⟩
  | succ most ih =>
    cases cs with
    | nil => exact ⟨[], rfl, rfl, by simp⟩
    | cons c cs =>
      cases hdigit : Json.hexValue? c with
      | none =>
        rw [takeDigits, hdigit]
        exact ⟨[], rfl, rfl, by simp⟩
      | some d =>
        obtain ⟨taken, hcs, hlength, hlines⟩ := ih cs
        rw [takeDigits, hdigit]
        have hline : c ∉ newLines := fun hmem => by
          simp [hexValue?_of_mem_newLines hmem] at hdigit
        refine ⟨c :: taken, congrArg (c :: ·) hcs, congrArg (· + 1) hlength, ?_⟩
        exact List.forall_mem_cons.mpr ⟨hline, hlines⟩

/-- The digits of an escape, with the letter before them. -/
theorem exists_of_letter_takeDigits (hletter : letter ∉ newLines) (most : Nat) (cs : List Char) :
    ∃ taken, letter :: cs = taken ++ (takeDigits most cs).2 ∧
      taken.length = (takeDigits most cs).1.length + 1 ∧ ∀ c ∈ taken, c ∉ newLines := by
  obtain ⟨taken, hcs, hlength, hlines⟩ := exists_of_takeDigits most cs
  refine ⟨letter :: taken, congrArg (letter :: ·) hcs, congrArg (· + 1) hlength, ?_⟩
  exact List.forall_mem_cons.mpr ⟨hletter, hlines⟩

/-- A character is one unit, or two. -/
theorem length_unitsOf_le (n : Nat) : (unitsOf n).length ≤ 2 := by
  unfold unitsOf
  split <;> simp

/-- No character is without a unit. -/
theorem length_unitsOf_pos (n : Nat) : 0 < (unitsOf n).length := by
  unfold unitsOf
  split <;> simp

/-- An escape takes at least one character for each of its units, besides the backslash. -/
theorem exists_of_readEscape (h : readEscape cs = some (us, rest)) :
    ∃ taken, cs = taken ++ rest ∧ us.length ≤ taken.length ∧ ∀ c ∈ taken, c ∉ newLines := by
  have hx : 'x' ∉ newLines := by decide +kernel
  have hu : 'u' ∉ newLines := by decide +kernel
  have hU : 'U' ∉ newLines := by decide +kernel
  unfold readEscape at h
  split at h
  · contradiction
  · next cs =>
    obtain ⟨taken, hcs, hlength, hlines⟩ := exists_of_letter_takeDigits hx 4 cs
    simp only at h
    split at h
    · contradiction
    · cases h
      exact ⟨taken, hcs, by simp [hlength], hlines⟩
  · next cs =>
    obtain ⟨taken, hcs, hlength, hlines⟩ := exists_of_letter_takeDigits hu 4 cs
    simp only at h
    split at h
    · cases h
      exact ⟨taken, hcs, by simp [hlength], hlines⟩
    · contradiction
  · next cs =>
    obtain ⟨taken, hcs, hlength, hlines⟩ := exists_of_letter_takeDigits hU 8 cs
    simp only at h
    split at h
    · next hnumber =>
      cases h
      have hunits := length_unitsOf_le (numberOf (takeDigits 8 cs).1)
      exact ⟨taken, hcs, by omega, hlines⟩
    · contradiction
  · next letter cs _ _ _ =>
    cases hunit : simpleEscape? letter with
    | none => simp [hunit] at h
    | some unit =>
      obtain ⟨rfl, rfl⟩ : [unit] = us ∧ cs = rest := by simpa [hunit] using h
      have hline : letter ∉ newLines := fun hmem => by
        simp [simpleEscape?_of_mem_newLines hmem] at hunit
      exact ⟨[letter], rfl, by simp, by simpa using hline⟩

/-- What a character or an escape takes, and how many units it has. -/
inductive Takes : (taken : List Char) → (us : List Nat) → Prop
  | plain {c : Char} (hquote : c ≠ '"') (hslash : c ≠ '\\') (hline : c ∉ newLines) :
      Takes [c] (unitsOf c.toNat)
  | escape {taken : List Char} {us : List Nat} (hlength : us.length ≤ taken.length)
      (hline : ∀ c ∈ taken, c ∉ newLines) : Takes ('\\' :: taken) us

/-- What is read as a character is taken off the front in one of the ways of `Takes`... -/
theorem takes_of_readCharacter (h : readCharacter cs = some (us, rest)) :
    ∃ taken, cs = taken ++ rest ∧ Takes taken us := by
  unfold readCharacter at h
  split at h
  · contradiction
  · contradiction
  · obtain ⟨taken, rfl, hlength, hlines⟩ := exists_of_readEscape h
    exact ⟨_ :: taken, rfl, .escape hlength hlines⟩
  · next c cs hquote hslash =>
    by_cases hline : c ∈ newLines
    · rw [if_pos hline] at h
      contradiction
    · obtain ⟨rfl, rfl⟩ : unitsOf c.toNat = us ∧ cs = rest := by simpa [hline] using h
      exact ⟨[c], rfl, .plain hquote hslash hline⟩

/-- ...so reading goes on with less. -/
theorem length_lt_of_readCharacter (h : readCharacter cs = some (us, rest)) :
    rest.length < cs.length := by
  obtain ⟨taken, rfl, htakes⟩ := takes_of_readCharacter h
  cases htakes with
  | plain => simp
  | escape =>
    rw [List.length_append, List.length_cons]
    omega

/-! ### Literals -/

/-- Reads up to the closing quote: the units that the literal stands for, and what follows the
quote. -/
def readUnits (cs : List Char) : Option (List Nat × List Char) :=
  match cs with
  | '"' :: rest => some ([], rest)
  | cs =>
    match _h : readCharacter cs with
    | none => none
    | some (us, rest) => (readUnits rest).map fun (more, after) => (us ++ more, after)
termination_by cs.length
decreasing_by exact length_lt_of_readCharacter _h

/-- Reads a literal at the front: its value, and what follows it. -/
def readRegular : List Char → Option (List Nat × List Char)
  | '"' :: rest => readUnits rest
  | _ => none

/-- Reading a literal reads its first character and then the others. -/
theorem readUnits_of_readCharacter (h : readCharacter cs = some (us, rest)) :
    readUnits cs = (readUnits rest).map fun (more, after) => (us ++ more, after) := by
  have hquote (after : List Char) (heq : cs = '"' :: after) : False := by
    subst heq
    contradiction
  rw [readUnits.eq_def]
  split
  · exact (hquote _ rfl).elim
  · split
    · next hnone =>
      rw [h] at hnone
      contradiction
    · next hsome =>
      rw [h] at hsome
      cases hsome
      rfl

/-- What is read, seen from the text between the quotes. -/
structure Spells (body : List Char) (us : List Nat) : Prop where
  length_le : us.length ≤ (units body).length
  /-- Only without escapes there are as many units as in the text. -/
  bare : us.length = (units body).length → ∀ c ∈ body, c ≠ '"' ∧ c ≠ '\\'
  line : ∀ c ∈ body, c ∉ newLines

/-- A text has as many units as characters, or more. -/
theorem length_le_length_units (cs : List Char) : cs.length ≤ (units cs).length := by
  induction cs with
  | nil => simp
  | cons c cs ih =>
    have hpos := length_unitsOf_pos c.toNat
    rw [units, List.flatMap_cons, ← units, List.length_append, List.length_cons]
    omega

/-- One character spells its units... -/
theorem Takes.spells (h : Takes taken us) : Spells taken us := by
  cases h with
  | @plain c hquote hslash hline =>
    have hunits : units [c] = unitsOf c.toNat := by simp [units]
    refine ⟨?_, fun _ => ?_, ?_⟩
    · exact Nat.le_of_eq (by rw [hunits])
    · simpa using ⟨hquote, hslash⟩
    · simpa using hline
  | @escape taken us hlength hline =>
    have hle := length_le_length_units taken
    have hunits : (units ('\\' :: taken)).length = 1 + (units taken).length := by
      rw [units, List.flatMap_cons, List.length_append]
      rfl
    refine ⟨by omega, fun heq => by omega, ?_⟩
    exact List.forall_mem_cons.mpr ⟨by decide +kernel, hline⟩

/-- ...and what is spelled one behind the other spells both. -/
theorem Spells.append (ha : Spells a us) (hb : Spells b more) : Spells (a ++ b) (us ++ more) := by
  have hunits : (units (a ++ b)).length = (units a).length + (units b).length := by
    rw [units, List.flatMap_append, List.length_append]
    rfl
  have hle := ha.length_le
  have hle' := hb.length_le
  refine ⟨?_, fun heq => ?_, ?_⟩
  · rw [hunits, List.length_append]
    omega
  · rw [hunits, List.length_append] at heq
    exact List.forall_mem_append.mpr ⟨ha.bare (by omega), hb.bare (by omega)⟩
  · exact List.forall_mem_append.mpr ⟨ha.line, hb.line⟩

/-- Reading ends at a quote, or goes on behind a character. -/
theorem readUnits_cases (h : readUnits cs = some (us, rest)) :
    (cs = '"' :: rest ∧ us = []) ∨
      ∃ first next more, readCharacter cs = some (first, next) ∧
        readUnits next = some (more, rest) ∧ us = first ++ more := by
  rw [readUnits.eq_def] at h
  split at h
  · cases h
    exact .inl ⟨rfl, rfl⟩
  · split at h
    · contradiction
    · next first next hcharacter =>
      obtain ⟨⟨more, after⟩, hnext, heq⟩ := Option.map_eq_some_iff.mp h
      cases heq
      exact .inr ⟨first, next, more, hcharacter, hnext, rfl⟩

/-- **What is read stands between the quotes**, and has a unit less for each escape at least. -/
theorem spells_of_readUnits (h : readUnits cs = some (us, rest)) :
    ∃ body, cs = body ++ '"' :: rest ∧ Spells body us := by
  induction hn : cs.length using Nat.strongRecOn generalizing cs us with
  | ind n ih =>
    subst hn
    obtain ⟨rfl, rfl⟩ | ⟨first, next, more, hcharacter, hnext, rfl⟩ := readUnits_cases h
    · exact ⟨[], rfl, by simp [units], by simp, by simp⟩
    · obtain ⟨body, rfl, hbody⟩ := ih _ (length_lt_of_readCharacter hcharacter) hnext rfl
      obtain ⟨taken, rfl, htakes⟩ := takes_of_readCharacter hcharacter
      exact ⟨taken ++ body, by simp, htakes.spells.append hbody⟩

/-- A character that needs no escape is read as itself. -/
theorem readCharacter_plain (hquote : c ≠ '"') (hslash : c ≠ '\\') (hline : c ∉ newLines)
    (rest : List Char) : readCharacter (c :: rest) = some (unitsOf c.toNat, rest) := by
  unfold readCharacter
  split
  · contradiction
  · next heq => exact absurd (List.cons.inj heq).1 hquote
  · next heq => exact absurd (List.cons.inj heq).1 hslash
  · next heq =>
    cases heq
    rw [if_neg hline]

/-- Characters that are read as themselves, however they are written. -/
theorem readUnits_flatMap {write : Char → List Char} {cs : List Char}
    (h : ∀ c ∈ cs, ∀ rest, readCharacter (write c ++ rest) = some (unitsOf c.toNat, rest))
    (rest : List Char) :
    readUnits (cs.flatMap write ++ '"' :: rest) = some (units cs, rest) := by
  induction cs with
  | nil => rw [List.flatMap_nil, List.nil_append, readUnits, units, List.flatMap_nil]
  | cons c cs ih =>
    rw [List.forall_mem_cons] at h
    rw [List.flatMap_cons, List.append_assoc, readUnits_of_readCharacter (h.1 _), ih h.2]
    rfl

/-! ## Quoted texts -/

/-- **A text that is quoted as it is** is read back exactly when it has no quote, no backslash and
nothing that ends a line. -/
theorem readRegular_bare_iff (v rest : List Char) :
    readRegular ('"' :: v ++ '"' :: rest) = some (units v, rest) ↔
      ∀ c ∈ v, c ≠ '"' ∧ c ≠ '\\' ∧ c ∉ newLines := by
  rw [List.cons_append, readRegular]
  constructor
  · intro h
    obtain ⟨body, hbody, hspells⟩ := spells_of_readUnits h
    obtain rfl : v = body := List.append_cancel_right hbody
    exact fun c hc =>
      ⟨(hspells.bare rfl c hc).1, (hspells.bare rfl c hc).2, hspells.line c hc⟩
  · intro h
    have hplain : ∀ c ∈ v, ∀ after,
        readCharacter ([c] ++ after) = some (unitsOf c.toNat, after) :=
      fun c hc after => readCharacter_plain (h c hc).1 (h c hc).2.1 (h c hc).2.2 after
    have hread := readUnits_flatMap hplain rest
    rwa [List.flatMap_singleton'] at hread

/-- What the generator writes for a character is read back as the character, unless it is a rare
line end. -/
theorem readCharacter_literalChar (h : c ∉ rareNewLines) (rest : List Char) :
    readCharacter (literalChar c ++ rest) = some (unitsOf c.toNat, rest) := by
  cases hletter : escapeLetter? c with
  | some letter =>
    rw [literalChar, hletter]
    unfold escapeLetter? at hletter
    split at hletter <;> cases hletter <;> rfl
  | none =>
    obtain ⟨hquote, hslash⟩ := ne_of_escapeLetter?_eq_none hletter
    have hline : c ∉ newLines := by
      intro hmem
      obtain rfl | rfl | hrare : c = '\n' ∨ c = '\r' ∨ c ∈ rareNewLines := by
        simpa [newLines] using hmem
      · contradiction
      · contradiction
      · exact h hrare
    rw [literalChar, hletter]
    exact readCharacter_plain hquote hslash hline rest

/-- **A text that is escaped and quoted** is read back exactly when it has none of the three
characters that end a line and are not escaped. -/
theorem readRegular_literal_iff (v rest : List Char) :
    readRegular ('"' :: literalBody v ++ '"' :: rest) = some (units v, rest) ↔
      ∀ c ∈ v, c ∉ rareNewLines := by
  rw [List.cons_append, readRegular]
  constructor
  · intro h c hc hrare
    obtain ⟨body, hbody, hspells⟩ := spells_of_readUnits h
    obtain rfl : literalBody v = body := List.append_cancel_right hbody
    have hwritten : c ∈ literalBody v := by
      refine List.mem_flatMap.mpr ⟨c, hc, ?_⟩
      rw [literalChar, escapeLetter?_of_mem_rareNewLines hrare]
      exact List.mem_singleton_self c
    exact hspells.line c hwritten (.tail _ (.tail _ hrare))
  · intro h
    exact readUnits_flatMap (fun c hc after => readCharacter_literalChar (h c hc) after) rest

end CmdletForge.Source
