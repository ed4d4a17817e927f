import CmdletForge.Yaml.Plain

/-!
# CmdletForge.Yaml.QuotedScalar

Scalars between single or double quotes.

1. Between single quotes only the quote itself is special: two of them stand for one.
2. Between double quotes a backslash begins an escape: one letter, or `x`, `u` or `U` and two,
   four or eight hexadecimal digits of a character.  A backslash before a line break drops it.
3. Gaps with line breaks are folded.
-/

namespace CmdletForge.Yaml

/-- The value of a hexadecimal digit. -/
def hexDigit? (c : Char) : Option Nat :=
  if '0' ≤ c ∧ c ≤ '9' then some (c.toNat - '0'.toNat)
  else if 'a' ≤ c ∧ c ≤ 'f' then some (c.toNat - 'a'.toNat + 10)
  else if 'A' ≤ c ∧ c ≤ 'F' then some (c.toNat - 'A'.toNat + 10)
  else none

/-- The number that `count` hexadecimal digits in front spell, behind those of `value`. -/
def hexNumber? (value : Nat) : (count : Nat) → List Char → Option Nat
  | 0, _ => some value
  | _ + 1, [] => none
  | count + 1, c :: cs => (hexDigit? c).bind fun d => hexNumber? (value * 16 + d) count cs

def letterEscape? : Char → Option Char
  | '0' => some (Char.ofNat 0)
  | 'a' => some (Char.ofNat 0x07)
  | 'b' => some (Char.ofNat 0x08)
  | 't' | '\t' => some '\t'
  | 'n' => some '\n'
  | 'v' => some (Char.ofNat 0x0B)
  | 'f' => some (Char.ofNat 0x0C)
  | 'r' => some '\r'
  | 'e' => some (Char.ofNat 0x1B)
  | ' ' => some ' '
  | '"' => some '"'
  | '/' => some '/'
  | '\\' => some '\\'
  | 'N' => some (Char.ofNat 0x85)
  | '_' => some (Char.ofNat 0xA0)
  | 'L' => some (Char.ofNat 0x2028)
  | 'P' => some (Char.ofNat 0x2029)
  | _ => none

/-- How many digits follow the letter of a numeric escape. -/
def escapeDigits? : Char → Option Nat
  | 'x' => some 2
  | 'u' => some 4
  | 'U' => some 8
  | _ => none

/-- The character of the escape whose backslash is in front, and the place after it. -/
def Cursor.escape (c : Cursor) (start : Mark) : Except Fault (Char × Cursor) :=
  let fail (problem : String) (mark : Mark) : Except Fault (Char × Cursor) :=
    .error (.within "while parsing a quoted scalar" start problem mark)
  match c.rest.drop 1 with
  | [] => fail "found unknown escape character" c.mark
  | x :: digits =>
    match letterEscape? x, escapeDigits? x with
    | some y, _ => .ok (y, c.skip 2)
    | none, none => fail "found unknown escape character" c.mark
    | none, some count =>
      match hexNumber? 0 count digits with
      | none => fail "did not find expected hexdecimal number" (c.skip 2).mark
      | some n =>
        if n.isValidChar then .ok (Char.ofNat n, c.skip (2 + count))
        else fail "found invalid Unicode character escape code" (c.skip 2).mark

/-- The piece of a quoted scalar up to a gap, the closing quote or the end, in reverse in front of
`text`; the place after it, and whether it ended with an escaped break.  Each step takes a
character. -/
def quotedPiece (single : Bool) (start : Mark) (text : List Char) (c : Cursor) :
    (steps : Nat) → Except Fault (List Char × Cursor × Bool)
  | 0 => .ok (text, c, false)
  | steps + 1 =>
    match c.rest with
    | [] => .ok (text, c, false)
    | x :: cs =>
      if isSpaceOrTab x || isBreak x then .ok (text, c, false)
      else if single then
        if x = '\'' then
          if cs.head? = some '\'' then quotedPiece single start ('\'' :: text) (c.skip 2) steps
          else .ok (text, c, false)
        else quotedPiece single start (x :: text) (c.skip 1) steps
      else if x = '"' then .ok (text, c, false)
      else if x = '\\' then
        if !cs.isEmpty && atLineEnd cs then .ok (text, (c.skip 1).skipLine, true)
        else do
          let (y, c) ← c.escape start
          quotedPiece single start (y :: text) c steps
      else quotedPiece single start (x :: text) (c.skip 1) steps

/-- Reads on in a quoted scalar whose text so far is `text`, in reverse.  Each step takes a
character. -/
def quotedFrom (single : Bool) (start : Mark) (text : List Char) (c : Cursor) :
    (steps : Nat) → Except Fault Scalar
  | 0 =>
    .error (.within "while scanning a quoted scalar" start "found unexpected end of stream" c.mark)
  | steps + 1 =>
    if c.atDocumentMarker then
      .error (.within "while scanning a quoted scalar" start "found unexpected document indicator"
        c.mark)
    else if c.rest.isEmpty then
      .error
        (.within "while scanning a quoted scalar" start "found unexpected end of stream" c.mark)
    else do
      let (text, c, escaped) ← quotedPiece single start text c c.steps
      if c.rest.head? = some (if single then '\'' else '"') then
        let c := c.skip 1
        return ⟨text.reverse, c.mark, c, false⟩
      else
        match c.gap 0 (if escaped then .escaped else .none) c.steps with
        | .error _ => return ⟨text.reverse, c.mark, c, false⟩
        | .ok (g, c) => quotedFrom single start (g.text.reverse ++ text) c steps

/-- Reads a quoted scalar, at whose opening quote the place stands. -/
def Cursor.quoted (c : Cursor) (single : Bool) : Except Fault Scalar :=
  quotedFrom single c.mark [] (c.skip 1) c.steps

end CmdletForge.Yaml
