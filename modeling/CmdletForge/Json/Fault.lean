/-!
# CmdletForge.Json.Fault

What stops a text from being JSON, and where.

1. A fault stands at a byte offset: the number of bytes read when it was noticed, counting the
   byte that was looked at.
2. The same spot can be described in two ways: a value that is read for its content is checked
   more closely than one that is only skipped.  A `Break` carries both descriptions.
3. Messages give an offset as a line and a column, the column in bytes from the line's start.
-/

namespace CmdletForge.Json

/-- What is wrong at one place of a text. -/
inductive Trouble where
  | endInValue
  | endInList
  | endInObject
  | endInString
  | expectedColon
  | expectedListCommaOrEnd
  | expectedObjectCommaOrEnd
  | expectedIdent
  | expectedValue
  | invalidEscape
  | invalidNumber
  | numberOutOfRange
  | controlCharacter
  | keyMustBeString
  | loneSurrogate
  | unexpectedEndOfEscape
  | trailingComma
  | trailingCharacters
  deriving DecidableEq, Repr

def Trouble.message : Trouble → String
  | .endInValue => "EOF while parsing a value"
  | .endInList => "EOF while parsing a list"
  | .endInObject => "EOF while parsing an object"
  | .endInString => "EOF while parsing a string"
  | .expectedColon => "expected `:`"
  | .expectedListCommaOrEnd => "expected `,` or `]`"
  | .expectedObjectCommaOrEnd => "expected `,` or `\x7d`"
  | .expectedIdent => "expected ident"
  | .expectedValue => "expected value"
  | .invalidEscape => "invalid escape"
  | .invalidNumber => "invalid number"
  | .numberOutOfRange => "number out of range"
  | .controlCharacter => "control character (\\u0000-\\u001F) found while parsing a string"
  | .keyMustBeString => "key must be a string"
  | .loneSurrogate => "lone leading surrogate in hex escape"
  | .unexpectedEndOfEscape => "unexpected end of hex escape"
  | .trailingComma => "trailing comma"
  | .trailingCharacters => "trailing characters"

/-- A trouble and its byte offset. -/
structure Fault where
  trouble : Trouble
  offset : Nat
  deriving DecidableEq, Repr

/-- A fault as it appears when the place is read for its content, and when it is skipped. -/
structure Break where
  reading : Fault
  skipping : Fault
  deriving DecidableEq, Repr

/-- A break that looks the same either way. -/
def Break.both (trouble : Trouble) (offset : Nat) : Break := ⟨⟨trouble, offset⟩, ⟨trouble, offset⟩⟩

/-- Line and column of the byte offset `n`, reading on from line `line` and column `column`. -/
def placeFrom (line column : Nat) : List Char → (n : Nat) → Nat × Nat
  | [], _ => (line, column)
  | c :: cs, n =>
    if n < c.utf8Size then (line, column + n)
    else if c = '\n' then placeFrom (line + 1) 0 cs (n - 1)
    else placeFrom line (column + c.utf8Size) cs (n - c.utf8Size)

/-- The line, from one, and the column of a byte offset. -/
def place (text : String) (offset : Nat) : Nat × Nat := placeFrom 1 0 text.toList offset

end CmdletForge.Json
