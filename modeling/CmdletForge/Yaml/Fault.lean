import CmdletForge.Yaml.Cursor

/-!
# CmdletForge.Yaml.Fault

What stops a text from being YAML, and where.

A fault names its problem and its place, and often what was being read and where that began.
-/

namespace CmdletForge.Yaml

/-- A problem and its place, with what was being read when it arose. -/
structure Fault where
  problem : String
  mark : Mark
  /-- The byte offset of a character that may not occur at all. -/
  offset : Nat
  context : Option String
  contextMark : Mark
  deriving DecidableEq, Repr

/-- A problem at `mark` while reading something that began at `start`. -/
def Fault.within (context : String) (start : Mark) (problem : String) (mark : Mark) : Fault :=
  ⟨problem, mark, 0, some context, start⟩

/-- A problem at `mark` on its own. -/
def Fault.alone (problem : String) (mark : Mark) : Fault := ⟨problem, mark, 0, none, mark⟩

/-- A character at a byte offset that may not occur in a text. -/
def Fault.character (offset : Nat) : Fault :=
  ⟨"control characters are not allowed", Mark.start, offset, none, Mark.start⟩

/-- Whether a place is not the start of the text. -/
def Mark.isLater (m : Mark) : Bool := m.line ≠ 0 || m.column ≠ 0

/-- How messages write a place; lines and columns are counted from one there. -/
def Mark.message (m : Mark) : String :=
  " at line " ++ toString (m.line + 1) ++ " column " ++ toString (m.column + 1)

/-- What a fault says.  The start of the text is not mentioned, nor is the place of the context
when it is that of the problem. -/
def Fault.message (f : Fault) : String :=
  let place :=
    if f.mark.isLater then f.mark.message
    else if f.offset ≠ 0 then " at position " ++ toString f.offset
    else ""
  let context := match f.context with
    | none => ""
    | some context =>
      let elsewhere := f.contextMark.line ≠ f.mark.line ∨ f.contextMark.column ≠ f.mark.column
      ", " ++ context ++ (if f.contextMark.isLater ∧ elsewhere then f.contextMark.message else "")
  f.problem ++ place ++ context

end CmdletForge.Yaml
