import CmdletForge.Decimal.Binary64

/-!
# CmdletForge.Decimal.Shortest

The decimal text of a double precision magnitude.

1. The digits are the fewest that read back as the same magnitude, and of those the nearest.
2. A `FloatStyle` says between which powers of ten the point is written in its place.
   Outside of them the text has one digit before the point and a signed exponent of at least
   two digits.
3. A text with the point in its place always shows a digit after it.
-/

namespace CmdletForge.Decimal

/-! ## Digits -/

/-- Decimal digits, without leading zeros, as a number, and the power of ten of the last one. -/
structure Digits where
  value : Nat
  scale : Int
  deriving DecidableEq, Repr

/-- How many digits a number has; zero has none. -/
def digitCount (n : Nat) : Nat := if n = 0 then 0 else (Nat.toDigits 10 n).length

/-- The power of ten of the first digit of the quotient `n / d` of positive numbers. -/
def leadingPower (n d : Nat) : Int :=
  if d ≤ n then (digitCount (n / d) : Int) - 1
  else -(digitCount ((d + n - 1) / n - 1) : Int)

/-- Whether `value · 10 ^ scale` rounds to the magnitude `x`: whether it lies between the
middles to the two neighbours of `x`, the middles included when the significand is even. -/
def readsBack (x : Binary64) (value : Nat) (scale : Int) : Bool :=
  let below := if x.significand = Nat.pow 2 52 ∧ -1074 < x.exponent then 1 else 2
  let e := x.exponent - 2
  let unit := Binary64.powUp e * Nat.pow 10 (-scale).toNat
  let here := value * Nat.pow 10 scale.toNat * Binary64.powUp (-e)
  let low := (4 * x.significand - below) * unit
  let high := (4 * x.significand + 2) * unit
  if x.significand % 2 = 0 then low ≤ here && here ≤ high else low < here && here < high

/-- The nearest number of `count` digits that reads back as `x`, if one of the two neighbours
of `x` on that grid does. -/
def digitsOf? (x : Binary64) (count : Nat) : Option Digits :=
  let scale := leadingPower x.num x.den - (count : Int) + 1
  let n := x.num * Nat.pow 10 (-scale).toNat
  let d := x.den * Nat.pow 10 scale.toNat
  let low := n / d
  let near := Binary64.roundDiv n d
  if readsBack x near scale then some ⟨near, scale⟩
  else if readsBack x low scale then some ⟨low, scale⟩
  else if readsBack x (low + 1) scale then some ⟨low + 1, scale⟩
  else none

/-- The fewest digits, from `count` to `count + more`, that read back as `x`. -/
def shortestFrom (x : Binary64) (count : Nat) : (more : Nat) → Digits
  | 0 => (digitsOf? x count).getD ⟨0, 0⟩
  | more + 1 => (digitsOf? x count).getD (shortestFrom x (count + 1) more)

/-- A number without its trailing zeros; at most `steps` are removed. -/
def Digits.strip (d : Digits) : (steps : Nat) → Digits
  | 0 => d
  | steps + 1 =>
    if d.value ≠ 0 ∧ d.value % 10 = 0 then Digits.strip ⟨d.value / 10, d.scale + 1⟩ steps else d

/-- The fewest digits that read back as `x`. -/
def shortest (x : Binary64) : Digits :=
  if x.significand = 0 then ⟨0, 0⟩ else (shortestFrom x 1 16).strip 17

/-! ## Text -/

/-- From which to which power of ten of the first digit the point is written in its place;
without bounds it always is. -/
structure FloatStyle where
  positional : Option (Int × Int)

/-- The decimal digits of a number. -/
def decimal (n : Nat) : List Char := Nat.toDigits 10 n

/-- Digits with the point in its place and at least one digit after it. -/
def positionalText (d : Digits) : List Char :=
  let ds := decimal d.value
  if 0 ≤ d.scale then ds ++ List.replicate d.scale.toNat '0' ++ ['.', '0']
  else
    let after := (-d.scale).toNat
    if after < ds.length then
      ds.take (ds.length - after) ++ '.' :: ds.drop (ds.length - after)
    else '0' :: '.' :: List.replicate (after - ds.length) '0' ++ ds

/-- An exponent with its sign and at least two digits. -/
def exponentText (e : Int) : List Char :=
  let ds := decimal e.natAbs
  (if e < 0 then '-' else '+') :: (if ds.length < 2 then '0' :: ds else ds)

/-- Digits with one digit before the point and an exponent. -/
def scientificText (d : Digits) (power : Int) : List Char :=
  match decimal d.value with
  | [] => []
  | [c] => c :: 'e' :: exponentText power
  | c :: cs => c :: '.' :: cs ++ 'e' :: exponentText power

def FloatStyle.text (style : FloatStyle) (x : Binary64) : List Char :=
  let d := shortest x
  let power := d.scale + (decimal d.value).length - 1
  match style.positional with
  | none => positionalText d
  | some (low, high) =>
    if d.value = 0 ∨ (low ≤ power ∧ power ≤ high) then positionalText d else scientificText d power

/-- The point stands in its place from `0.00001` to below `10000000000000000`. -/
def FloatStyle.compact : FloatStyle := ⟨some (-5, 15)⟩

/-- The point always stands in its place. -/
def FloatStyle.plain : FloatStyle := ⟨none⟩

end CmdletForge.Decimal
