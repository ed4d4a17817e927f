import CmdletForge.Yaml.Plain

/-!
# CmdletForge.Yaml.Block

Literal and folded block scalars.

1. Behind the indicator may stand a sign, `+` to keep all line breaks at the end or `-` to drop
   them, and a digit for the indentation, in either order, and a comment.
2. Without a digit the indentation is that of the first line that is not blank, at least one
   more than the collection around it has.
3. A literal scalar keeps its lines.  In a folded one a single break between two lines that do
   not begin with a blank becomes a space.
-/

namespace CmdletForge.Yaml

/-- What the header of a block scalar says of the line breaks at its end. -/
inductive Chomping where
  | drop
  | one
  | keep
  deriving DecidableEq, Repr

/-- The chomping that a sign asks for. -/
def chomping? : Char → Option Chomping
  | '+' => some .keep
  | '-' => some .drop
  | _ => none

/-- The sign in front, and the place after it. -/
def Cursor.chomping (c : Cursor) : Option (Chomping × Cursor) :=
  (c.rest.head?.bind chomping?).map fun s => (s, c.skip 1)

/-- The indentation digit in front, zero for none, and the place after it. -/
def Cursor.increment (c : Cursor) (start : Mark) : Except Fault (Nat × Cursor) :=
  match c.rest with
  | '0' :: _ =>
    .error (.within "while scanning a block scalar" start
      "found an indentation indicator equal to 0" c.mark)
  | x :: _ => if x.isDigit then .ok (x.toNat - '0'.toNat, c.skip 1) else .ok (0, c)
  | [] => .ok (0, c)

/-- The header of a block scalar behind its indicator: chomping, digit, and the place at the
start of the next line. -/
def Cursor.blockHeader (c : Cursor) (start : Mark) :
    Except Fault (Chomping × Nat × Cursor) := do
  let (sign, digit, c) ← match c.chomping with
    | some (sign, c) => do
      let (digit, c) ← c.increment start
      pure (sign, digit, c)
    | none => do
      let (digit, c) ← c.increment start
      match c.chomping with
      | some (sign, c') =>
        if digit = 0 then pure (Chomping.one, digit, c) else pure (sign, digit, c')
      | none => pure (Chomping.one, digit, c)
  let c := (c.skipWhile isSpaceOrTab).skipComment
  if atLineEnd c.rest then return (sign, digit, c.skipLine)
  else
    throw (.within "while scanning a block scalar" start
      "did not find expected comment or line break" c.mark)

/-- The blank lines at a place: their breaks, the deepest column met, where the last of them
stops, and the place after them and after the indentation of the next line.  The indentation is
zero while it is not known.  Each step takes a line. -/
def blankLines (start : Mark) (indent : Nat) (breaks : List Char) (deepest : Nat) (stop : Mark)
    (c : Cursor) : (steps : Nat) → Except Fault (List Char × Nat × Mark × Cursor)
  | 0 => .ok (breaks, deepest, stop, c)
  | steps + 1 =>
    let spaces := (c.rest.takeWhile (· == ' ')).length
    let c := c.skip (if indent = 0 then spaces else min spaces (indent - c.mark.column))
    let deepest := max deepest c.mark.column
    if (indent = 0 ∨ c.mark.column < indent) ∧ c.rest.head? = some '\t' then
      .error (.within "while scanning a block scalar" start
        "found a tab character where an indentation space is expected" c.mark)
    else
      match c.line? with
      | some (text, c) => blankLines start indent (breaks ++ text) deepest c.mark c steps
      | none => .ok (breaks, deepest, stop, c)

/-- A block scalar while it is read. -/
structure BlockState where
  text : List Char
  /-- The break that ended the last line. -/
  leading : List Char
  /-- The breaks of the blank lines behind it. -/
  trailing : List Char
  /-- Whether the last line began with a blank. -/
  blank : Bool
  stop : Mark
  cursor : Cursor

/-- Reads the lines of a block scalar that stand at column `indent`.  Each step takes a line. -/
def blockLines (literal : Bool) (start : Mark) (indent : Nat) (s : BlockState) :
    (steps : Nat) → Except Fault BlockState
  | 0 => .ok s
  | steps + 1 =>
    match s.cursor.rest with
    | [] => .ok s
    | x :: _ =>
      if s.cursor.mark.column ≠ indent then .ok s
      else do
        let blank := isSpaceOrTab x
        let fold := !literal && s.leading.head? == some '\n' && !s.blank && !blank
        let joint := if fold then (if s.trailing.isEmpty then [' '] else []) else s.leading
        let (line, c) := s.cursor.span fun x => !isBreak x
        let (leading, c) := match c.line? with
          | some (text, c) => (text, c)
          | none => ([], c)
        let (trailing, _, stop, c) ← blankLines start indent [] 0 c.mark c c.steps
        blockLines literal start indent
          ⟨s.text ++ joint ++ s.trailing ++ line, leading, trailing, blank, stop, c⟩ steps

/-- Reads a block scalar, at whose indicator the place stands, in a collection indented to
column `parent`. -/
def Cursor.block (c : Cursor) (literal : Bool) (parent : Int) : Except Fault Scalar := do
  let start := c.mark
  let (chomping, digit, c) ← (c.skip 1).blockHeader start
  let known : Nat := if digit = 0 then 0 else (if 0 ≤ parent then parent.toNat + digit else digit)
  let (trailing, deepest, stop, c) ← blankLines start known [] 0 c.mark c c.steps
  let indent : Nat := if known = 0 then max (max deepest (parent + 1).toNat) 1 else known
  let s ← blockLines literal start indent ⟨[], [], trailing, false, stop, c⟩ c.steps
  let text := match chomping with
    | .drop => s.text
    | .one => s.text ++ s.leading
    | .keep => s.text ++ s.leading ++ s.trailing
  return ⟨text, s.stop, s.cursor, false⟩

end CmdletForge.Yaml
