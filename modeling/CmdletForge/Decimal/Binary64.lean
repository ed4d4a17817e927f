/-!
# CmdletForge.Decimal.Binary64

Magnitudes of double precision numbers, in exact arithmetic.

1. A magnitude is `significand · 2 ^ exponent` with a significand below `2 ^ 53` and an exponent
   from -1074 to 971.
2. `ofRatio` rounds a quotient of natural numbers to the nearest magnitude; of two equally near
   ones it takes the one with the even significand.  Beyond the largest there is none.
3. Products and quotients of magnitudes are the exact ones, rounded once.
-/

namespace CmdletForge.Decimal

/-- The magnitude `significand · 2 ^ exponent`. -/
structure Binary64 where
  significand : Nat
  exponent : Int
  deriving DecidableEq, Repr

namespace Binary64

/-! ## Quotients -/

/-- `2 ^ e` for a non-negative `e`, and one otherwise. -/
def powUp (e : Int) : Nat := Nat.pow 2 e.toNat

/-- The numerator of a magnitude as a quotient of natural numbers. -/
def num (x : Binary64) : Nat := x.significand * powUp x.exponent

/-- The denominator of a magnitude as a quotient of natural numbers. -/
def den (x : Binary64) : Nat := powUp (-x.exponent)

/-- A quotient rounded to the nearest natural number, a half to the even one. -/
def roundDiv (n d : Nat) : Nat :=
  let q := n / d
  let r := n % d
  if d < 2 * r || (2 * r == d && q % 2 == 1) then q + 1 else q

/-! ## Rounding -/

/-- The exponent with which a quotient `n / d` of positive numbers has a significand of 53
binary digits, or the least exponent where it has fewer. -/
def exponentFor (n d : Nat) : Int :=
  let e := max (-1074) ((n.log2 : Int) - (d.log2 : Int) - 52)
  if n * powUp (-e) < Nat.pow 2 52 * (d * powUp e) then max (-1074) (e - 1) else e

/-- The magnitude nearest to `n / d`; none beyond the largest. -/
def ofRatio (n d : Nat) : Option Binary64 :=
  if n = 0 then some ⟨0, -1074⟩
  else
    let e := exponentFor n d
    let m := roundDiv (n * powUp (-e)) (d * powUp e)
    let x : Binary64 := if m = Nat.pow 2 53 then ⟨Nat.pow 2 52, e + 1⟩ else ⟨m, e⟩
    if 971 < x.exponent then none else some x

/-- The magnitude nearest to a natural number. -/
def ofNat (n : Nat) : Option Binary64 := ofRatio n 1

/-- The magnitude nearest to `digits · 10 ^ scale`. -/
def ofDecimal (digits : Nat) (scale : Int) : Option Binary64 :=
  if digits = 0 then some ⟨0, -1074⟩
  else if 400 < scale then none
  else if scale < -400 - (Nat.toDigits 10 digits).length then some ⟨0, -1074⟩
  else ofRatio (digits * Nat.pow 10 scale.toNat) (Nat.pow 10 (-scale).toNat)

/-- The rounded product. -/
def mul (x y : Binary64) : Option Binary64 := ofRatio (x.num * y.num) (x.den * y.den)

/-- The rounded quotient by a positive magnitude. -/
def div (x y : Binary64) : Option Binary64 := ofRatio (x.num * y.den) (x.den * y.num)

end Binary64

end CmdletForge.Decimal
