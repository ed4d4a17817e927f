/-!
# CmdletForge.Text.Utf8

Texts counted and read in UTF-8.

1. `width` is the number of bytes of a list of characters; offsets into a text count bytes.
2. `sliceBytes cs start stop` is the part of `cs` between two offsets.  There is none when an
   offset lies inside a character or past the end, or when they stand in the wrong order.
3. `decode` reads exactly the well-formed byte sequences: the shortest form of a character
   only, no surrogates, nothing above U+10FFFF.
-/

namespace CmdletForge.Text

/-! ## Widths and slices -/

/-- The number of bytes of a list of characters. -/
def width : List Char → Nat
  | [] => 0
  | c :: cs => c.utf8Size + width cs

@[simp] theorem width_nil : width [] = 0 := rfl

@[simp] theorem width_cons (c : Char) (cs : List Char) :
    width (c :: cs) = c.utf8Size + width cs := rfl

theorem width_append (xs ys : List Char) : width (xs ++ ys) = width xs + width ys := by
  induction xs with
  | nil => simp
  | cons c cs ih => simp [ih, Nat.add_assoc]

/-- What follows the first `n` bytes, when a character ends there. -/
def dropBytes? : Nat → List Char → Option (List Char)
  | 0, cs => some cs
  | _ + 1, [] => none
  | n + 1, c :: cs => if c.utf8Size ≤ n + 1 then dropBytes? (n + 1 - c.utf8Size) cs else none
termination_by _ cs => cs.length

/-- The first `n` bytes, when a character ends there. -/
def takeBytes? : Nat → List Char → Option (List Char)
  | 0, _ => some []
  | _ + 1, [] => none
  | n + 1, c :: cs =>
    if c.utf8Size ≤ n + 1 then (takeBytes? (n + 1 - c.utf8Size) cs).map (c :: ·) else none
termination_by _ cs => cs.length

/-- The characters from the byte offset `start` up to the byte offset `stop`. -/
def sliceBytes (cs : List Char) (start stop : Nat) : Option (List Char) :=
  if start ≤ stop then (dropBytes? start cs).bind (takeBytes? (stop - start)) else none

/-! ## Reading bytes -/

/-- The value of a continuation byte, `10xxxxxx`. -/
def continuation? (b : UInt8) : Option Nat :=
  if 0x80 ≤ b.toNat ∧ b.toNat < 0xC0 then some (b.toNat - 0x80) else none

/-- The character with code point `n` when it is at least `low` and no surrogate. -/
def scalar? (low n : Nat) : Option Char :=
  if low ≤ n ∧ n.isValidChar then some (Char.ofNat n) else none

/-- The characters that a sequence of bytes spells, when it is well formed. -/
def decode : List UInt8 → Option (List Char)
  | [] => some []
  | a :: rest =>
    let n := a.toNat
    if n < 0x80 then (decode rest).map (Char.ofNat n :: ·)
    else if 0xC0 ≤ n ∧ n < 0xE0 then
      match rest with
      | b :: rest => do
        let c ← scalar? 0x80 ((n - 0xC0) * 64 + (← continuation? b))
        return c :: (← decode rest)
      | _ => none
    else if 0xE0 ≤ n ∧ n < 0xF0 then
      match rest with
      | b :: b' :: rest => do
        let c ← scalar? 0x800 (((n - 0xE0) * 64 + (← continuation? b)) * 64 + (← continuation? b'))
        return c :: (← decode rest)
      | _ => none
    else if 0xF0 ≤ n ∧ n < 0xF8 then
      match rest with
      | b :: b' :: b'' :: rest => do
        let c ← scalar? 0x10000
          ((((n - 0xF0) * 64 + (← continuation? b)) * 64 + (← continuation? b')) * 64 +
            (← continuation? b''))
        return c :: (← decode rest)
      | _ => none
    else none

/-- The text that a sequence of bytes spells, when it is well formed. -/
def decodeText (bytes : List UInt8) : Option String := (decode bytes).map String.ofList

end CmdletForge.Text
