import CmdletForge.Yaml.QuotedScalar
import CmdletForge.Yaml.Token

/-!
# CmdletForge.Yaml.Property

Tags, anchors, aliases and directives.

1. A tag is `!<uri>`, a handle and a suffix, or `!` and a suffix.  A handle is `!`, a word and
   `!`, with the last two left out for the plain `!`.
2. A URI may hold octets written `%XX`, which must be the octets of one UTF-8 character at a
   time.  Octets are kept as the characters of their numbers, and a zero octet ends the text.
3. An anchor and an alias are words of letters, digits, underscores and hyphens.
4. A directive is a line that begins with a percent sign: the version of the grammar, or a tag
   handle and what it stands for.
-/

namespace CmdletForge.Yaml

/-! ## URIs -/

/-- The octet that a percent sign and two hexadecimal digits in front spell. -/
def octet? : List Char → Option Nat
  | '%' :: a :: b :: _ => do return (← hexDigit? a) * 16 + (← hexDigit? b)
  | _ => none

/-- How many octets follow the leading octet of a UTF-8 character. -/
def trailingOctets? (n : Nat) : Option Nat :=
  if n < 0x80 then some 0
  else if 0xC0 ≤ n ∧ n < 0xE0 then some 1
  else if 0xE0 ≤ n ∧ n < 0xF0 then some 2
  else if 0xF0 ≤ n ∧ n < 0xF8 then some 3
  else none

/-- What is being read when a URI is, in a directive or in a tag. -/
def uriContext (directive : Bool) : String :=
  if directive then "while parsing a %TAG directive" else "while parsing a tag"

/-- The `count` trailing octets in front, and the place after them. -/
def Cursor.trailing (c : Cursor) (directive : Bool) (start : Mark) :
    (count : Nat) → Except Fault (List Char × Cursor)
  | 0 => .ok ([], c)
  | count + 1 =>
    match octet? c.rest with
    | none => .error (.within (uriContext directive) start "did not find URI escaped octet" c.mark)
    | some n =>
      if 0x80 ≤ n ∧ n < 0xC0 then do
        let (octets, c) ← (c.skip 3).trailing directive start count
        return (Char.ofNat n :: octets, c)
      else
        .error (.within (uriContext directive) start "found an incorrect trailing UTF-8 octet"
          c.mark)

/-- The octets of an escaped character in front, and the place after them. -/
def Cursor.escaped (c : Cursor) (directive : Bool) (start : Mark) :
    Except Fault (List Char × Cursor) :=
  match octet? c.rest with
  | none => .error (.within (uriContext directive) start "did not find URI escaped octet" c.mark)
  | some n =>
    match trailingOctets? n with
    | none =>
      .error (.within (uriContext directive) start "found an incorrect leading UTF-8 octet" c.mark)
    | some count => do
      let (octets, c) ← (c.skip 3).trailing directive start count
      return (Char.ofNat n :: octets, c)

/-- The characters of a URI; commas and brackets only where a gap must follow. -/
def isUriChar (wide : Bool) (c : Char) : Bool :=
  isWordChar c || ";/?:@&=+$.%!~*'()".toList.contains c ||
    (wide && (c == ',' || c == '[' || c == ']'))

/-- The URI in front, behind `acc`, and the place after it.  Each step takes a character. -/
def Cursor.uriFrom (c : Cursor) (wide directive : Bool) (start : Mark) (acc : List Char) :
    (steps : Nat) → Except Fault (List Char × Cursor)
  | 0 => .ok (acc, c)
  | steps + 1 =>
    match c.rest with
    | [] => .ok (acc, c)
    | x :: _ =>
      if !isUriChar wide x then .ok (acc, c)
      else if x = '%' then do
        let (octets, c) ← c.escaped directive start
        c.uriFrom wide directive start (acc ++ octets) steps
      else (c.skip 1).uriFrom wide directive start (acc ++ [x]) steps

/-- The URI in front, behind the beginning `head`, and the place after it. -/
def Cursor.uri (c : Cursor) (wide directive : Bool) (start : Mark) (head : List Char) :
    Except Fault (String × Cursor) := do
  let (text, after) ← c.uriFrom wide directive start (head.drop 1) c.steps
  if head.isEmpty ∧ after.mark.index = c.mark.index then
    throw (.within (uriContext directive) start "did not find expected tag URI" after.mark)
  return (String.ofList (text.takeWhile (· ≠ Char.ofNat 0)), after)

/-! ## Tags -/

/-- The tag handle in front, or the beginning of a URI, and the place after it. -/
def Cursor.handle (c : Cursor) (directive : Bool) (start : Mark) :
    Except Fault (List Char × Cursor) :=
  if c.rest.head? ≠ some '!' then
    .error (.within
      (if directive then "while scanning a tag directive" else "while scanning a tag") start
      "did not find expected '!'" c.mark)
  else
    let (word, c) := (c.skip 1).span isWordChar
    if c.rest.head? = some '!' then .ok ('!' :: word ++ ['!'], c.skip 1)
    else if directive ∧ word ≠ [] then
      .error (.within "while parsing a tag directive" start "did not find expected '!'" c.mark)
    else .ok ('!' :: word, c)

/-- Whether the characters of a handle are one with a closing `!`. -/
def isClosedHandle (handle : List Char) : Bool :=
  2 ≤ handle.length && handle.getLast? == some '!'

/-- Reads a tag, at whose `!` the place stands: its handle, its suffix, and the place after it. -/
def Cursor.tag (c : Cursor) (flow : Bool) : Except Fault (String × String × Cursor) := do
  let start := c.mark
  let (handle, suffix, c) ←
    if (c.rest.drop 1).head? = some '<' then do
      let (suffix, c) ← (c.skip 2).uri true false start []
      if c.rest.head? ≠ some '>' then
        throw (.within "while scanning a tag" start "did not find the expected '>'" c.mark)
      pure ("", suffix, c.skip 1)
    else do
      let (handle, c) ← c.handle false start
      if isClosedHandle handle then
        let (suffix, c) ← c.uri false false start []
        pure (String.ofList handle, suffix, c)
      else
        let (suffix, c) ← c.uri false false start handle
        if suffix.isEmpty then pure ("", "!", c) else pure ("!", suffix, c)
  if atGap c.rest ∨ (flow ∧ c.rest.head? = some ',') then return (handle, suffix, c)
  else
    throw (.within "while scanning a tag" start "did not find expected whitespace or line break"
      c.mark)

/-! ## Anchors and aliases -/

/-- Whether a text ends or goes on after the word of an anchor as it must. -/
def atAnchorEnd (cs : List Char) : Bool :=
  atGap cs || (cs.head?.any fun c => "?:,]\x7d%@`".toList.contains c)

/-- The word of an anchor or alias, at whose sign the place stands, and the place after it. -/
def Cursor.anchor (c : Cursor) (context : String) : Except Fault (String × Cursor) :=
  let (word, after) := (c.skip 1).span isWordChar
  if word.isEmpty ∨ !atAnchorEnd after.rest then
    .error (.within context c.mark "did not find expected alphabetic or numeric character"
      after.mark)
  else .ok (String.ofList word, after)

/-! ## Directives -/

/-- A number of a version in front, and the place after it. -/
def Cursor.versionNumber (c : Cursor) (start : Mark) : Except Fault (Nat × Cursor) :=
  let context := "while scanning a %YAML directive"
  let (digits, after) := c.span Char.isDigit
  if 9 < digits.length then
    .error (.within context start "found extremely long version number" (c.skip 9).mark)
  else if digits.isEmpty then
    .error (.within context start "did not find expected version number" c.mark)
  else .ok (digits.foldl (fun n d => n * 10 + (d.toNat - '0'.toNat)) 0, after)

/-- What the name of a directive stands for, with the place after its values. -/
def Cursor.directiveValue (c : Cursor) (start : Mark) (name : String) :
    Except Fault (Kind × Cursor) := do
  if name = "YAML" then
    let (major, c) ← (c.skipWhile isSpaceOrTab).versionNumber start
    if c.rest.head? ≠ some '.' then
      throw (.within "while scanning a %YAML directive" start
        "did not find expected digit or '.' character" c.mark)
    let (minor, c) ← (c.skip 1).versionNumber start
    return (.version major minor, c)
  else if name = "TAG" then
    let (handle, c) ← (c.skipWhile isSpaceOrTab).handle true start
    if !(c.rest.head?.any isSpaceOrTab) then
      throw (.within "while scanning a %TAG directive" start "did not find expected whitespace"
        c.mark)
    let (uri, c) ← (c.skipWhile isSpaceOrTab).uri true true start []
    if !atGap c.rest then
      throw (.within "while scanning a %TAG directive" start
        "did not find expected whitespace or line break" c.mark)
    return (.tagHandle (String.ofList handle) uri, c)
  else throw (.within "while scanning a directive" start "found unknown directive name" c.mark)

/-- Reads a directive, at whose percent sign the place stands: its token, and the place at the
start of the next line. -/
def Cursor.directive (c : Cursor) : Except Fault (Token × Cursor) := do
  let start := c.mark
  let context := "while scanning a directive"
  let (name, c) := (c.skip 1).span isWordChar
  if name.isEmpty then
    throw (.within context start "could not find expected directive name" c.mark)
  if !atGap c.rest then
    throw (.within context start "found unexpected non-alphabetical character" c.mark)
  let (kind, c) ← c.directiveValue start (String.ofList name)
  let stop := c.mark
  let c := (c.skipWhile isSpaceOrTab).skipComment
  if !atLineEnd c.rest then
    throw (.within context start "did not find expected comment or line break" c.mark)
  return (⟨kind, start, stop⟩, c.skipLine)

end CmdletForge.Yaml
