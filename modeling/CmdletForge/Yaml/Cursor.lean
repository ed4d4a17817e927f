/-!
# CmdletForge.Yaml.Cursor

Places in a YAML text, and the classes of characters that its grammar speaks of.

1. A mark counts characters, lines and columns from zero.
2. A line break is a carriage return and a line feed together, one of them alone, a next-line
   character, or a line or paragraph separator.  The last two stand for themselves in a text;
   the others become a line feed.
3. The end of the text counts as a break wherever one may stand.
-/

namespace CmdletForge.Yaml

/-- A place: how many characters, lines, and characters of its line come before it. -/
structure Mark where
  index : Nat
  line : Nat
  column : Nat
  deriving DecidableEq, Repr

/-- The place at the start of a text. -/
def Mark.start : Mark := ⟨0, 0, 0⟩

/-- The place `n` characters further on the same line. -/
def Mark.advance (m : Mark) (n : Nat) : Mark := ⟨m.index + n, m.line, m.column + n⟩

/-- The place at the start of the next line, after a break of `n` characters. -/
def Mark.nextLine (m : Mark) (n : Nat) : Mark := ⟨m.index + n, m.line + 1, 0⟩

/-- What is left of a text, and its place. -/
structure Cursor where
  rest : List Char
  mark : Mark
  /-- How many characters the whole text has. -/
  size : Nat
  deriving DecidableEq, Repr

/-- The place at the start of a text. -/
def Cursor.ofText (cs : List Char) : Cursor := ⟨cs, .start, cs.length⟩

/-- How many steps suffice when each takes a character. -/
def Cursor.steps (c : Cursor) : Nat := c.size + 1 - c.mark.index

/-! ## Classes of characters -/

/-- The blanks within a line. -/
def isSpaceOrTab (c : Char) : Bool := c == ' ' || c == '\t'

/-- The characters that a line break begins with. -/
def isBreak (c : Char) : Bool :=
  c == '\r' || c == '\n' || c == Char.ofNat 0x85 || c == Char.ofNat 0x2028 || c == Char.ofNat 0x2029

/-- Letters, digits, the underscore and the hyphen. -/
def isWordChar (c : Char) : Bool := c.isAlphanum || c == '_' || c == '-'

/-- Whether a text ends or continues with a blank or a break. -/
def atGap : List Char → Bool
  | [] => true
  | c :: _ => isSpaceOrTab c || isBreak c

/-- Whether a text ends or continues with a break. -/
def atLineEnd : List Char → Bool
  | [] => true
  | c :: _ => isBreak c

/-- Whether a document marker of three equal characters stands in front. -/
def atMarker (m : Char) : List Char → Bool
  | a :: b :: c :: rest => a == m && b == m && c == m && atGap rest
  | _ => false

/-- Whether a line begins here with a marker of a document's start or end. -/
def Cursor.atDocumentMarker (c : Cursor) : Bool :=
  c.mark.column == 0 && (atMarker '-' c.rest || atMarker '.' c.rest)

/-! ## Moving on -/

/-- The place `n` characters further on the same line. -/
def Cursor.skip (c : Cursor) (n : Nat) : Cursor :=
  { c with rest := c.rest.drop n, mark := c.mark.advance n }

/-- The characters of a class in front, none of them a break, and the place after them. -/
def Cursor.span (c : Cursor) (p : Char → Bool) : List Char × Cursor :=
  let taken := c.rest.takeWhile p
  (taken, { c with rest := c.rest.dropWhile p, mark := c.mark.advance taken.length })

/-- The place after the characters of a class in front, none of them a break. -/
def Cursor.skipWhile (c : Cursor) (p : Char → Bool) : Cursor := (c.span p).2

/-- The break in front as a text, and the place after it. -/
def Cursor.line? (c : Cursor) : Option (List Char × Cursor) :=
  match c.rest with
  | '\r' :: '\n' :: cs => some (['\n'], { c with rest := cs, mark := c.mark.nextLine 2 })
  | x :: cs =>
    if isBreak x then
      let text := if x = Char.ofNat 0x2028 ∨ x = Char.ofNat 0x2029 then [x] else ['\n']
      some (text, { c with rest := cs, mark := c.mark.nextLine 1 })
    else none
  | [] => none

/-- The place after the break in front, if there is one. -/
def Cursor.skipLine (c : Cursor) : Cursor :=
  match c.line? with
  | some (_, c) => c
  | none => c

/-- The place after the blanks in front and a comment behind them. -/
def Cursor.skipComment (c : Cursor) : Cursor :=
  match c.rest with
  | '#' :: _ => c.skipWhile fun x => !isBreak x
  | _ => c

end CmdletForge.Yaml
