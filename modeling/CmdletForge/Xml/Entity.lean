import CmdletForge.Text.Utf8

/-!
# CmdletForge.Xml.Entity

Characters written as entities.

1. An entity stands between `&` and `;`: one of five names, or a number sign and the code point
   of a character in decimal digits, or in hexadecimal ones behind an `x`.
2. Everything else stands for itself; a `;` alone does too.
3. `escape` writes the five characters that have names; `unescape` reads them back.
-/

namespace CmdletForge.Xml

/-! ## Faults -/

/-- What is wrong with the code point of an entity. -/
inductive CodeTrouble where
  | sign
  | noDigits
  | badDigit
  | tooLarge
  | zero
  | noCharacter (code : Nat)
  deriving DecidableEq, Repr

/-- What the trouble with a number is, for the troubles that are about its digits. -/
def CodeTrouble.digits? : CodeTrouble → Option String
  | .noDigits => some "cannot parse integer from empty string"
  | .badDigit => some "invalid digit found in string"
  | .tooLarge => some "number too large to fit in target type"
  | _ => none

def CodeTrouble.message : CodeTrouble → String
  | .sign => "unexpected number sign"
  | .zero => "0x0 character is not permitted in XML"
  | .noCharacter code => "`" ++ toString code ++ "` is not a valid codepoint"
  | t => (t.digits?).getD ""

/-- What is wrong with an entity; offsets are bytes in the text. -/
inductive EntityFault where
  | unterminated (start stop : Nat)
  | unrecognized (start stop : Nat) (name : List Char)
  | code (t : CodeTrouble)
  deriving DecidableEq, Repr

def EntityFault.message : EntityFault → String
  | .unterminated start stop =>
    "Error while escaping character at range " ++ toString start ++ ".." ++ toString stop ++
      ": Cannot find ';' after '&'"
  | .unrecognized start stop name =>
    "at " ++ toString start ++ ".." ++ toString stop ++ ": unrecognized entity `" ++
      String.ofList name ++ "`"
  | .code t => "invalid character reference: " ++ t.message

/-! ## Code points -/

/-- The value of a digit in a base up to sixteen. -/
def digit? (base : Nat) (c : Char) : Option Nat :=
  let value :=
    if '0' ≤ c ∧ c ≤ '9' then some (c.toNat - '0'.toNat)
    else if 'a' ≤ c ∧ c ≤ 'f' then some (c.toNat - 'a'.toNat + 10)
    else if 'A' ≤ c ∧ c ≤ 'F' then some (c.toNat - 'A'.toNat + 10)
    else none
  value.filter (· < base)

/-- The number of 32 bits that digits spell behind `value`. -/
def codeFrom (base value : Nat) : List Char → Except CodeTrouble Nat
  | [] => .ok value
  | c :: cs =>
    match digit? base c with
    | none => .error .badDigit
    | some d =>
      if value * base + d < Nat.pow 2 32 then codeFrom base (value * base + d) cs
      else .error .tooLarge

/-- The number that unsigned digits spell. -/
def code (base : Nat) : List Char → Except CodeTrouble Nat
  | [] => .error .noDigits
  | c :: cs => if c = '+' ∨ c = '-' then .error .sign else codeFrom base 0 (c :: cs)

def codeCharacter (digits : List Char) : Except CodeTrouble Char := do
  let n ← match digits with
    | 'x' :: digits => code 16 digits
    | digits => code 10 digits
  if n = 0 then throw .zero
  if n.isValidChar then return Char.ofNat n else throw (.noCharacter n)

/-! ## Names -/

/-- The character of a named entity. -/
def named? (name : List Char) : Option Char :=
  match String.ofList name with
  | "lt" => some '<'
  | "gt" => some '>'
  | "amp" => some '&'
  | "apos" => some '\''
  | "quot" => some '"'
  | _ => none

/-- What an entity with the given inside stands for; `start` is the offset of its `&`. -/
def entity (start : Nat) (inside : List Char) : Except EntityFault Char :=
  match inside with
  | '#' :: digits => (codeCharacter digits).mapError .code
  | name =>
    match named? name with
    | some c => .ok c
    | none => .error (.unrecognized (start + 1) (start + 1 + Text.width name) name)

/-! ## Reading -/

/-- Reads a text in which `offset` bytes came before; `pending` holds the offset of an open `&`
and, reversed, what followed it. -/
def unescapeFrom (offset : Nat) (pending : Option (Nat × List Char)) :
    List Char → Except EntityFault (List Char)
  | [] =>
    match pending with
    | none => .ok []
    | some (start, _) => .error (.unterminated start offset)
  | c :: cs =>
    let next := offset + c.utf8Size
    match pending with
    | none =>
      if c = '&' then unescapeFrom next (some (offset, [])) cs
      else (unescapeFrom next none cs).map (c :: ·)
    | some (start, inside) =>
      if c = '&' then .error (.unterminated start (next + Text.width cs))
      else if c = ';' then do
        let x ← entity start inside.reverse
        return x :: (← unescapeFrom next none cs)
      else unescapeFrom next (some (start, c :: inside)) cs

/-- The characters that a text stands for. -/
def unescape (cs : List Char) : Except EntityFault (List Char) := unescapeFrom 0 none cs

/-! ## Writing -/

/-- A character in an escaped text. -/
def escapeChar (c : Char) : List Char :=
  if c = '&' then "&amp;".toList
  else if c = '<' then "&lt;".toList
  else if c = '>' then "&gt;".toList
  else if c = '"' then "&quot;".toList
  else if c = '\'' then "&apos;".toList
  else [c]

/-- A text in which the five characters with names are escaped. -/
def escape (cs : List Char) : List Char := cs.flatMap escapeChar

end CmdletForge.Xml
