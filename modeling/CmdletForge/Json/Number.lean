import CmdletForge.Decimal.Shortest
import CmdletForge.Json.Fault

/-!
# CmdletForge.Json.Number

Numbers of a JSON text.

1. A number is a sign, an integer part without a spare leading zero, an optional fraction and an
   optional exponent.
2. One without fraction and exponent is an integer when 64 bits hold it; `-0` is not one.
3. Any other is a double precision number: the first digits that 64 bits hold are one integer,
   which is rounded, and then multiplied or divided once by the power of ten that is left.
   Beyond the largest double precision number it is out of range.
-/

namespace CmdletForge.Json

open CmdletForge.Decimal (Binary64)

/-- The value of a number. -/
inductive Number where
  | natural (value : Nat)
  /-- The integer `-value`, for a positive `value`. -/
  | negative (value : Nat)
  | fraction (minus : Bool) (magnitude : Binary64)
  deriving DecidableEq, Repr

/-- A number as it is written. -/
structure Numeral where
  minus : Bool
  whole : List Char
  fraction : Option (List Char)
  exponent : Option (Bool × List Char)
  deriving DecidableEq, Repr

/-! ## Reading a numeral -/

/-- A place in a text: what is left of it, and the byte offset. -/
structure Cursor where
  rest : List Char
  offset : Nat
  deriving DecidableEq, Repr

namespace Cursor

/-- The offset that a fault has whose character has only been looked at. -/
def looking (c : Cursor) : Nat := if c.rest.isEmpty then c.offset else c.offset + 1

/-- The decimal digits at a place, and the place after them. -/
def digits (c : Cursor) : List Char × Cursor :=
  let ds := c.rest.takeWhile Char.isDigit
  (ds, ⟨c.rest.dropWhile Char.isDigit, c.offset + ds.length⟩)

end Cursor

/-- A fault whose wording differs only where the text ends. -/
def endOr (c : Cursor) (offset : Nat) (trouble : Trouble) : Break :=
  if c.rest.isEmpty then ⟨⟨.endInValue, offset⟩, ⟨trouble, offset⟩⟩ else .both trouble offset

/-- The exponent at a place, if one begins there. -/
def readExponent (c : Cursor) : Except Break (Option (Bool × List Char) × Cursor) :=
  match c.rest with
  | e :: cs =>
    if e = 'e' ∨ e = 'E' then
      let (minus, c) : Bool × Cursor := match cs with
        | '+' :: cs => (false, ⟨cs, c.offset + 2⟩)
        | '-' :: cs => (true, ⟨cs, c.offset + 2⟩)
        | cs => (false, ⟨cs, c.offset + 1⟩)
      match c.digits with
      | ([], _) => .error (endOr c c.looking .invalidNumber)
      | (ds, c) => .ok (some (minus, ds), c)
    else .ok (none, c)
  | [] => .ok (none, c)

/-- The fraction at a place, if one begins there. -/
def readFraction (c : Cursor) : Except Break (Option (List Char) × Cursor) :=
  match c.rest with
  | '.' :: cs =>
    let c : Cursor := ⟨cs, c.offset + 1⟩
    match c.digits with
    | ([], _) => .error (endOr c c.looking .invalidNumber)
    | (ds, c) => .ok (some ds, c)
  | _ => .ok (none, c)

def readWhole (c : Cursor) : Except Break (List Char × Cursor) :=
  match c.rest with
  | '0' :: cs =>
    let c : Cursor := ⟨cs, c.offset + 1⟩
    match c.digits with
    | ([], _) => .ok (['0'], c)
    | _ => .error (.both .invalidNumber c.looking)
  | _ =>
    match c.digits with
    | ([], _) => .error (endOr c c.looking .invalidNumber)
    | (ds, c) => .ok (ds, c)

/-- The numeral at a place that begins with a digit or a minus sign. -/
def readNumeral (c : Cursor) : Except Break (Numeral × Cursor) := do
  let (minus, c) : Bool × Cursor := match c.rest with
    | '-' :: cs => (true, ⟨cs, c.offset + 1⟩)
    | _ => (false, c)
  let (whole, c) ← readWhole c
  let (fraction, c) ← readFraction c
  let (exponent, c) ← readExponent c
  return (⟨minus, whole, fraction, exponent⟩, c)

/-! ## The value of a numeral -/

/-- The value of a decimal digit. -/
def digitValue (c : Char) : Nat := c.toNat - '0'.toNat

/-- The digits that still fit into 64 bits behind `value`, and how many digits are left. -/
def gather (value : Nat) : List Char → Nat × Nat
  | [] => (value, 0)
  | c :: cs =>
    let next := value * 10 + digitValue c
    if next < Nat.pow 2 64 then gather next cs else (value, cs.length + 1)

/-- The exponent that digits spell, and how many digits of it were read, up to the first one
with which it leaves 31 bits; none of it is lost when it never does. -/
def gatherExponent (value read : Nat) : List Char → Except Nat Nat
  | [] => .ok value
  | c :: cs =>
    let next := value * 10 + digitValue c
    if next < Nat.pow 2 31 then gatherExponent next (read + 1) cs else .error (read + 1)

/-- An exponent kept within 32 bits. -/
def clampExponent (e : Int) : Int := max (-Int.pow 2 31) (min (Int.pow 2 31 - 1) e)

/-- `x · 10 ^ e`, rounded after each multiplication or division; powers up to 308 are taken in
one step, and at most `steps` steps are made. -/
def scale (x : Binary64) (e : Int) : (steps : Nat) → Option Binary64
  | 0 => some x
  | steps + 1 =>
    if e.natAbs ≤ 308 then do
      let power ← Binary64.ofDecimal 1 e.natAbs
      if 0 ≤ e then x.mul power else x.div power
    else if x.significand = 0 then some x
    else if 0 ≤ e then none
    else do
      let power ← Binary64.ofDecimal 1 308
      scale (← x.div power) (e + 308) steps

/-- The value of a numeral whose last character ends at the offset `stop`. -/
def Numeral.value (n : Numeral) (stop : Nat) : Except Fault Number :=
  let (whole, dropped) := gather 0 n.whole
  match n.fraction, n.exponent, dropped with
  | none, none, 0 =>
    if !n.minus then .ok (.natural whole)
    else if 0 < whole ∧ whole ≤ Nat.pow 2 63 then .ok (.negative whole)
    else
      match Binary64.ofNat whole with
      | some x => .ok (.fraction true x)
      | none => .error ⟨.numberOutOfRange, stop⟩
  | fraction, exponent, dropped =>
    let fractionDigits := fraction.getD []
    let (significand, lost) := gather whole fractionDigits
    let start : Int := (dropped : Int) - ((fractionDigits.length - lost : Nat) : Int)
    let finish (e : Int) : Except Fault Number :=
      match (Binary64.ofNat significand).bind fun x => scale x e 4 with
      | some x => .ok (.fraction n.minus x)
      | none => .error ⟨.numberOutOfRange, stop⟩
    match exponent with
    | none => finish start
    | some (minus, digits) =>
      match gatherExponent 0 0 digits with
      | .ok e => finish (clampExponent (if minus then start - e else start + e))
      | .error read =>
        if significand ≠ 0 ∧ !minus then .error ⟨.numberOutOfRange, stop - (digits.length - read)⟩
        else .ok (.fraction n.minus ⟨0, -1074⟩)

/-- The decimal text of a fraction, as messages show it. -/
def fractionText (minus : Bool) (x : Binary64) : String :=
  String.ofList ((if minus then ['-'] else []) ++ Decimal.FloatStyle.compact.text x)

end CmdletForge.Json
