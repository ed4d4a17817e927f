import CmdletForge.Source.Literal

/-!
# CmdletForge.Source.Code

Source code as a sequence of pieces.

A piece is text that stands as it is, a member of a variable, the declaration of a property, or
a text between quotes: as a literal that is escaped, or bare.  `Code.print` writes the pieces one
behind the other.
-/

namespace CmdletForge.Source

/-- A piece of source code. -/
inductive Piece where
  | text (s : String)
  /-- A member of a variable. -/
  | member (owner name : String)
  /-- A public property that can be read and set. -/
  | property (typeName name : String)
  /-- A string literal. -/
  | literal (value : String)
  /-- A text between quotes, without escapes. -/
  | bare (value : String)
  deriving DecidableEq, Repr

/-- A text is a piece that stands as it is. -/
instance : Coe String Piece := ⟨.text⟩

def Piece.print : Piece → String
  | .text s => s
  | .member owner name => owner ++ "." ++ name
  | .property typeName name => "public " ++ typeName ++ " " ++ name ++ " \x7b get; set; \x7d"
  | .literal value => Source.literal value
  | .bare value => "\"" ++ value ++ "\""

/-- A sequence of pieces. -/
abbrev Code := List Piece

namespace Code

def print : Code → String
  | [] => ""
  | p :: rest => p.print ++ print rest

/-- Codes with a separator between them. -/
def separated (separator : String) : List Code → Code
  | [] => []
  | [c] => c
  | c :: rest => c ++ .text separator :: separated separator rest

/-- The members of a variable that code mentions. -/
def membersOf (owner : String) (c : Code) : List String :=
  c.filterMap fun
    | .member o name => if o = owner then some name else none
    | _ => none

/-- The names of the properties that code declares. -/
def declared (c : Code) : List String :=
  c.filterMap fun
    | .property _ name => some name
    | _ => none

end Code

end CmdletForge.Source
