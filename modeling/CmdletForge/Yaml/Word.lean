import CmdletForge.Decimal.Shortest
import CmdletForge.Shape.Mismatch
import CmdletForge.Yaml.Node

/-!
# CmdletForge.Yaml.Word

What the words of plain scalars mean.

1. An integer may have a sign and be written in base ten, or behind `0x`, `0o` or `0b` in base
   sixteen, eight or two.  In base ten it has no spare zero in front.
2. A fraction is a decimal number, `.inf` or `.nan`; it has no spare zero in front either, when
   it has digits only.
3. `Word.found` says what a plain scalar holds for a message: nothing, a flag, an integer of 64
   or 128 bits, a fraction, or else a text.
-/

namespace CmdletForge.Yaml

open CmdletForge.Decimal (Binary64 FloatStyle)

/-- What a word stands for in messages about it. -/
def isNull (s : String) : Bool := ["null", "Null", "NULL", "~"].contains s

def flag? (s : String) : Option Bool :=
  if ["true", "True", "TRUE"].contains s then some true
  else if ["false", "False", "FALSE"].contains s then some false
  else none

/-! ## Integers -/

/-- Whether digits begin with a spare zero, behind a sign or not. -/
def hasSpareZero (cs : List Char) : Bool :=
  let digits := match cs with
    | '-' :: cs => cs
    | '+' :: cs => cs
    | cs => cs
  match digits with
  | '0' :: d :: ds => (d :: ds).all Char.isDigit
  | _ => false

/-- The number that digits of a base spell when those of `n` are followed by the digit `c`. -/
def nextDigit? (base n : Nat) (c : Char) : Option Nat :=
  (hexDigit? c).bind fun d => if d < base then some (n * base + d) else none

/-- The number that digits of a base spell; there is at least one. -/
def digits? (base : Nat) (cs : List Char) : Option Nat :=
  if cs.isEmpty then none else List.foldlM (nextDigit? base) 0 cs

/-- The base that a word begins with, and the digits behind it. -/
def based? : List Char → Option (Nat × List Char)
  | '0' :: 'x' :: cs => some (16, cs)
  | '0' :: 'o' :: cs => some (8, cs)
  | '0' :: 'b' :: cs => some (2, cs)
  | _ => none

/-- The integer that a word without a minus sign stands for. -/
def natural? (cs : List Char) : Option Nat :=
  let unsigned := match cs with
    | '+' :: cs => cs
    | cs => cs
  match based? unsigned with
  | some (base, ds) => digits? base ds
  | none => if hasSpareZero cs then none else digits? 10 unsigned

/-- The integer whose negation a word with a minus sign stands for. -/
def negated? (cs : List Char) : Option Nat :=
  match cs with
  | '-' :: rest =>
    match based? rest with
    | some (base, ds) => digits? base ds
    | none => if hasSpareZero cs then none else digits? 10 rest
  | _ => none

/-! ## Fractions -/

/-- The digits in front, and what follows them. -/
def spanDigits (cs : List Char) : List Char × List Char :=
  (cs.takeWhile Char.isDigit, cs.dropWhile Char.isDigit)

/-- The number that decimal digits spell. -/
def decimalValue (ds : List Char) : Nat := ds.foldl (fun n d => n * 10 + (d.toNat - '0'.toNat)) 0

/-- The exponent at the end of a decimal number; zero when there is none. -/
def exponent? (cs : List Char) : Option Int :=
  match cs with
  | [] => some 0
  | e :: rest =>
    if e = 'e' ∨ e = 'E' then
      let (minus, ds) : Bool × List Char := match rest with
        | '-' :: ds => (true, ds)
        | '+' :: ds => (false, ds)
        | ds => (false, ds)
      if !ds.isEmpty ∧ ds.all Char.isDigit then
        some (if minus then -(decimalValue ds : Int) else decimalValue ds)
      else none
    else none

/-- The sign and the magnitude that a decimal number stands for, when it is in range. -/
def decimal? (cs : List Char) : Option (Bool × Binary64) :=
  let (minus, cs) : Bool × List Char := match cs with
    | '-' :: cs => (true, cs)
    | '+' :: cs => (false, cs)
    | cs => (false, cs)
  let (whole, rest) := spanDigits cs
  let (fraction, rest) := match rest with
    | '.' :: rest => spanDigits rest
    | rest => ([], rest)
  if whole.isEmpty ∧ fraction.isEmpty then none
  else do
    let e ← exponent? rest
    let x ← Binary64.ofDecimal (decimalValue (whole ++ fraction)) (e - fraction.length)
    return (minus, x)

/-- How a message shows the fraction that a word stands for. -/
def fraction? (s : String) : Option String :=
  let cs := s.toList
  let unsigned := match cs with
    | '+' :: cs => cs
    | cs => cs
  if cs.head? = some '+' ∧ (unsigned.head?.any fun c => c == '+' || c == '-') then none
  else if [".inf", ".Inf", ".INF"].contains (String.ofList unsigned) then some "inf"
  else if ["-.inf", "-.Inf", "-.INF"].contains s then some "-inf"
  else if [".nan", ".NaN", ".NAN"].contains s then some "NaN"
  else
    (decimal? unsigned).map fun (minus, x) =>
      String.ofList ((if minus then ['-'] else []) ++ FloatStyle.plain.text x)

/-! ## What a word holds -/

/-- The integer that a word stands for, as messages describe it. -/
def integerFound? (s : String) : Option Found :=
  let n := natural? s.toList
  let m := negated? s.toList
  match n, m with
  | some n, _ =>
    if n < Nat.pow 2 64 then some (.integer n)
    else if n < Nat.pow 2 128 then some (.wideInteger n "u128")
    else none
  | none, some m =>
    if m ≤ Nat.pow 2 63 then some (.integer (-(m : Int)))
    else if m ≤ Nat.pow 2 127 then some (.wideInteger (-(m : Int)) "i128")
    else none
  | none, none => none

/-- What a plain scalar without a tag holds. -/
def wordFound (s : String) : Found :=
  if s.isEmpty ∨ isNull s then .unit
  else
    match flag? s, integerFound? s, (if hasSpareZero s.toList then none else fraction? s) with
    | some b, _, _ => .flag b
    | none, some found, _ => found
    | none, none, some digits => .fraction digits
    | none, none, none => .text s

def coreTag (name : String) : String := "tag:yaml.org,2002:" ++ name

/-- Why a scalar is not what was expected. -/
def scalarMismatch (tag : Option String) (text : String) (style : Style) (expected : String) :
    Mismatch :=
  let is (found : Found) : Mismatch := .invalidType found expected
  let isNot (what : String) : Mismatch := .invalidValue (.text text) what
  match tag with
  | none => is (if style = .plain then wordFound text else .text text)
  | some tag =>
    if tag = coreTag "bool" then
      match flag? text with
      | some b => is (.flag b)
      | none => isNot "a boolean"
    else if tag = coreTag "int" then
      match integerFound? text with
      | some found => is found
      | none => isNot "an integer"
    else if tag = coreTag "float" then
      match fraction? text with
      | some digits => is (.fraction digits)
      | none => isNot "a float"
    else if tag = coreTag "null" then
      if isNull text then is .unit else isNot "null"
    else if tag.toList.head? = some '!' ∧ style = .plain then is (wordFound text)
    else is (.text text)

end CmdletForge.Yaml
