/-!
# CmdletForge.Display.Column

Columns of a table view.

1. What a column shows is known by its key: its property, else its label, else its script.
2. Laying one column over another keeps every field that the upper one leaves unset.  A column
   that is sensitive once stays so.
-/

namespace CmdletForge.Display

/-- How the header of a column is aligned. -/
inductive Alignment where
  | unset
  | left
  | right
  deriving DecidableEq, Repr

def Alignment.name : Alignment → String
  | .unset => "None"
  | .left => "Left"
  | .right => "Right"

def Alignment.ofName? (name : String) : Option Alignment :=
  [Alignment.unset, .left, .right].find? (·.name = name)

/-- A column of a table view. -/
structure Column where
  label : Option String
  /-- The width of the header; zero when it is unset. -/
  width : Nat
  alignment : Alignment
  /-- Where the column stands; zero when it is unset. -/
  order : Int
  /-- Whether the value must not be shown. -/
  sensitive : Bool
  /-- A script that computes the value. -/
  script : Option String
  /-- The property with the value. -/
  property : Option String
  deriving DecidableEq, Repr

namespace Column

/-- The column with no field set. -/
def blank : Column := ⟨none, 0, .unset, 0, false, none, none⟩

def ofProperty (name : String) : Column := { blank with property := some name }

/-- What a column is known by. -/
def key (c : Column) : Option String := c.property <|> c.label <|> c.script

def header (c : Column) : String := (c.label <|> c.property).getD ""

/-- The column `b` laid over the column `a`. -/
def merge (a b : Column) : Column where
  label := b.label <|> a.label
  width := if b.width ≠ 0 then b.width else a.width
  alignment := if b.alignment ≠ .unset then b.alignment else a.alignment
  order := if b.order ≠ 0 then b.order else a.order
  sensitive := a.sensitive || b.sensitive
  script := b.script <|> a.script
  property := b.property <|> a.property

/-- Columns with the same key keep it when one is laid over the other, whichever of their
fields the key came from. -/
theorem key_merge {a b : Column} {k : String} (ha : a.key = some k) (hb : b.key = some k) :
    (a.merge b).key = some k := by
  obtain ⟨labelA, _, _, _, _, scriptA, propertyA⟩ := a
  obtain ⟨labelB, _, _, _, _, scriptB, propertyB⟩ := b
  simp only [key, merge] at ha hb ⊢
  -- the first field that is set on either side is where both keys agree
  cases propertyB with
  | some p => simpa using hb
  | none =>
    cases propertyA with
    | some p => simpa using ha
    | none =>
      cases labelB with
      | some l => simpa using hb
      | none =>
        cases labelA with
        | some l => simpa using ha
        | none => cases scriptB <;> simp_all

end Column

end CmdletForge.Display
