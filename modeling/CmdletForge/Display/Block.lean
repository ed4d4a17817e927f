import CmdletForge.Display.Column
import CmdletForge.Text.Basic

/-!
# CmdletForge.Display.Block

Blocks of display rules, and the columns that they give to a type.

1. A block that names a type whose properties it reflects contributes a column for each of them
   that it does not skip; any other block contributes its own columns.
2. The contributions of all blocks for a type are gathered in order: one with a key that is
   there already is laid over the first column of that key.
3. Columns with an order come first, by their orders; the others keep their places.
-/

namespace CmdletForge.Display

/-- Rules for the display of some types. -/
structure Block where
  /-- The types that the rules are for. -/
  types : List String
  columns : List Column
  /-- The type whose properties are the columns. -/
  reflected : Option String
  /-- The properties that are not shown. -/
  skipped : List String
  deriving DecidableEq, Repr

/-- The properties of types, by the names of the types. -/
abbrev Catalog := String → Option (List String)

namespace Block

def blank : Block := ⟨[], [], none, []⟩

/-- The type whose properties a block reflects, when it names one. -/
def reflectedType? (b : Block) : Option String :=
  (b.reflected.map Text.trim).filter fun name => !name.isEmpty

/-- Whether a block reflects the properties of a type. -/
def reflects (b : Block) : Bool := b.reflectedType?.isSome

/-- Whether a block is for a type. -/
def appliesTo (b : Block) (typeName : String) : Bool := b.types.contains typeName

/-- Whether a block leaves a property out. -/
def skips (b : Block) (property : String) : Bool := b.skipped.contains property

/-- The columns that a block contributes. -/
def contributions (b : Block) (catalog : Catalog) : List Column :=
  match b.reflectedType? with
  | none => b.columns
  | some name =>
    (((catalog name).getD []).filter fun p => !b.skips p).map Column.ofProperty

end Block

/-! ## Columns of a type -/

/-- Lays a column over the first one with the key `key`; none when there is no such column. -/
def overlay (key : String) (c : Column) : List Column → Option (List Column)
  | [] => none
  | d :: rest =>
    if d.key = some key then some (d.merge c :: rest) else (overlay key c rest).map (d :: ·)

/-- Adds a contributed column to those that are there. -/
def gather (columns : List Column) (c : Column) : List Column :=
  match c.key.bind fun key => overlay key c columns with
  | some columns => columns
  | none => columns ++ [c]

/-- Whether a column may stand in front of another. -/
def orderLe (a b : Column) : Bool :=
  if a.order = 0 then b.order = 0
  else if b.order = 0 then true
  else a.order ≤ b.order

def blocksFor (blocks : List Block) (typeName : String) : List Block :=
  blocks.filter (·.appliesTo typeName)

/-- All columns that blocks contribute to a type. -/
def contributionsFor (blocks : List Block) (typeName : String) (catalog : Catalog) :
    List Column :=
  (blocksFor blocks typeName).flatMap fun b => b.contributions catalog

/-- The columns of a type. -/
def columnsFor (blocks : List Block) (typeName : String) (catalog : Catalog) : List Column :=
  ((contributionsFor blocks typeName catalog).foldl gather []).mergeSort orderLe

end CmdletForge.Display
