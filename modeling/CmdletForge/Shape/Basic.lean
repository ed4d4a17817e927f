/-!
# CmdletForge.Shape.Basic

Shapes of the records that a document may hold, and the values of each shape.

1. A shape is a text, a flag, a count, something optional, a list, a table keyed by names, or a
   record with named fields.
2. `Shape.Value` is the type of the values of a shape, so that a reader for all shapes is one
   function whose result already has the right type.
3. A field is either needed or has a default: nothing, an empty text, list or table, or false.
-/

namespace CmdletForge

mutual

/-- What a document is expected to hold at one place. -/
inductive Shape where
  | text
  | flag
  | count
  | optional (shape : Shape)
  | list (item : Shape)
  | table (entry : Shape)
  | record (name : String) (fields : Fields)

/-- The fields of a record, in order. -/
inductive Fields where
  | nil
  | field (name : String) (needed : Bool) (shape : Shape) (rest : Fields)

end

/-- A field that must be present. -/
abbrev Fields.need (name : String) (shape : Shape) (rest : Fields) : Fields :=
  .field name true shape rest

/-- A field that may be absent. -/
abbrev Fields.allow (name : String) (shape : Shape) (rest : Fields) : Fields :=
  .field name false shape rest

/-! ## Values -/

mutual

/-- The values of a shape. -/
@[reducible] def Shape.Value : Shape → Type
  | .text => String
  | .flag => Bool
  | .count => Nat
  | .optional s => Option s.Value
  | .list s => List s.Value
  | .table s => List (String × s.Value)
  | .record _ fields => fields.Values

@[reducible] def Fields.Values : Fields → Type
  | .nil => Unit
  | .field _ _ s rest => s.Value × rest.Values

end

/-- For each field a value, or nothing while none has been read. -/
@[reducible] def Fields.Partial : Fields → Type
  | .nil => Unit
  | .field _ _ s rest => Option s.Value × rest.Partial

def Fields.unread : (fields : Fields) → fields.Partial
  | .nil => ()
  | .field _ _ _ rest => (none, rest.unread)

mutual

def Shape.blank : (s : Shape) → s.Value
  | .text => ""
  | .flag => false
  | .count => (0 : Nat)
  | .optional _ => none
  | .list _ => []
  | .table _ => []
  | .record _ fields => fields.blanks

def Fields.blanks : (fields : Fields) → fields.Values
  | .nil => ()
  | .field _ _ s rest => (s.blank, rest.blanks)

end

def Fields.size : Fields → Nat
  | .nil => 0
  | .field _ _ _ rest => rest.size + 1

/-- The values of all fields, with defaults for those that were not read; or the name of the
first needed field that was not. -/
def Fields.finish : (fields : Fields) → fields.Partial → Except String fields.Values
  | .nil, _ => .ok ()
  | .field name needed s rest, (value, others) =>
    match value with
    | some v => (rest.finish others).map (Prod.mk v)
    | none => if needed then .error name else (rest.finish others).map (Prod.mk s.blank)

/-! ## Tables -/

/-- Puts a value under a name into a table: in the place of an earlier value of that name, or at
the end. -/
def Table.put {α : Type} (name : String) (value : α) : List (String × α) → List (String × α)
  | [] => [(name, value)]
  | (key, old) :: rest =>
    if key = name then (key, value) :: rest else (key, old) :: Table.put name value rest

/-! ## How messages name a shape -/

/-- What a message says was expected. -/
def Shape.expected : Shape → String
  | .text => "a string"
  | .flag => "a boolean"
  | .count => "usize"
  | .optional s => s.expected
  | .list _ => "a sequence"
  | .table _ => "a map"
  | .record name _ => "struct " ++ name

end CmdletForge
