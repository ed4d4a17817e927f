import CmdletForge.Source.Code

/-!
# CmdletForge.Source.Writer

Lines of source with an indentation.

1. A line stands behind four spaces for each level; an empty one has none.
2. A block stands between braces, one level deeper.  The level never falls below zero.
3. Steps say what is written, as a value; a region holds steps between its two lines.
-/

namespace CmdletForge.Source

/-! ## Writers -/

/-- What has been written, and the level of the next line. -/
structure Writer where
  text : String
  level : Nat
  deriving DecidableEq, Repr

def indentation (level : Nat) : String := String.ofList (List.replicate (4 * level) ' ')

def lineAt (level : Nat) (line : String) : String :=
  if line.isEmpty then "\n" else indentation level ++ line ++ "\n"

namespace Writer

/-- Nothing has been written; the first line has the given level. -/
def start (level : Nat) : Writer := ⟨"", level⟩

def line (w : Writer) (s : String) : Writer := { w with text := w.text ++ lineAt w.level s }

def deeper (w : Writer) : Writer := { w with level := w.level + 1 }

/-- Goes one level back, if there is one. -/
def back (w : Writer) : Writer := { w with level := w.level - 1 }

end Writer

/-! ## Steps -/

/-- Something to write. -/
inductive Step where
  | line (code : Code)
  | deeper
  | back
  | openBlock
  | closeBlock
  /-- Steps between the two lines of a region. -/
  | region (name : String) (body : List Step)
  deriving Repr

def Step.blank : Step := .line []

/-- A line that stands as it is. -/
def Step.plain (s : String) : Step := .line [.text s]

mutual

def Step.write (w : Writer) : Step → Writer
  | .line code => w.line code.print
  | .deeper => w.deeper
  | .back => w.back
  | .openBlock => (w.line "\x7b").deeper
  | .closeBlock => w.back.line "\x7d"
  | .region name body => (Step.writeAll (w.line ("#region " ++ name)) body).line "#endregion"

def Step.writeAll (w : Writer) : List Step → Writer
  | [] => w
  | s :: rest => Step.writeAll (s.write w) rest

end

/-- Steps in a block. -/
def Step.block (body : List Step) : List Step := .openBlock :: body ++ [.closeBlock]

/-- The text of steps whose first line has the given level. -/
def Step.textAt (level : Nat) (steps : List Step) : String :=
  (Step.writeAll (.start level) steps).text

end CmdletForge.Source
