import CmdletForge.Display.Block
import CmdletForge.Xml.Typed

/-!
# CmdletForge.Display.Manifest

The manifest of display rules, as it is written in XML.

1. It lists namespaces and types to leave out, types to keep, and blocks of rules; every list is
   an element that holds one element for each item.
2. A label, script, property or reflected type is absent when its element, or the element of the
   column or block, says that it is nil.
-/

namespace CmdletForge.Display

open Xml (Element ReadError)

/-- The display rules of a manifest. -/
structure Manifest where
  namespacesToExclude : List String
  typesToInclude : List String
  typesToExclude : List String
  blocks : List Block
  deriving DecidableEq, Repr

namespace Manifest

def blank : Manifest := ⟨[], [], [], []⟩

/-! ## Words -/

/-- A text that is not what was expected. -/
def mismatch (found expected : String) : ReadError :=
  .mismatch (.invalidType (.text found) expected)

/-- The number that decimal digits spell; there is at least one. -/
def digits? (cs : List Char) : Option Nat :=
  if !cs.isEmpty ∧ cs.all Char.isDigit then
    some (cs.foldl (fun n d => n * 10 + (d.toNat - '0'.toNat)) 0)
  else none

/-- A number below `2 ^ 32`. -/
def width (s : String) : Except ReadError Nat :=
  let n := match s.toList with
    | '+' :: cs => digits? cs
    | cs => digits? cs
  match n.filter (· < Nat.pow 2 32) with
  | some n => .ok n
  | none => .error (mismatch s "u32")

/-- A number from `-2 ^ 31` to `2 ^ 31 - 1`. -/
def order (s : String) : Except ReadError Int :=
  let n : Option Int := match s.toList with
    | '-' :: cs => (digits? cs).map fun n => -(n : Int)
    | '+' :: cs => (digits? cs).map fun n => (n : Int)
    | cs => (digits? cs).map fun n => (n : Int)
  match n.filter fun n => -Int.pow 2 31 ≤ n ∧ n < Int.pow 2 31 with
  | some n => .ok n
  | none => .error (mismatch s "i32")

def flag (s : String) : Except ReadError Bool :=
  if s = "true" ∨ s = "1" then .ok true
  else if s = "false" ∨ s = "0" then .ok false
  else .error (mismatch s "a boolean")

/-- An alignment; an empty text is not one. -/
def alignment (s : String) : Except ReadError Alignment :=
  let name := if s.isEmpty then "$text" else s
  match Alignment.ofName? name with
  | some a => .ok a
  | none => .error (.mismatch (.unknownVariant name ["None", "Left", "Right"]))

/-! ## Elements -/

variable (fault : Option Xml.Fault)

/-- The field of a text that may be absent. -/
def optionalText {σ : Type} (name : String) (set : Option String → σ → σ) : Xml.Field σ :=
  .single name fun owner first record =>
    if Xml.isNil first.bound first.tag ∨ Xml.isNil first.bound owner.tag then
      (first.skip fault).map fun _ => set none record
    else (first.text fault).map fun s => set (some s) record

def word {σ α : Type} (name : String) (read : String → Except ReadError α) (set : α → σ → σ) :
    Xml.Field σ :=
  .single name fun _ first record => do
    return set (← read (← first.text fault)) record

def listOf {α : Type} (item : String) (readElement : Element → Except ReadError α)
    (readText : String → Except ReadError α) : Element → Except ReadError (List α) :=
  Xml.readRecord fault [.list fault item readElement readText fun items _ => items] []

def texts (item : String) : Element → Except ReadError (List String) :=
  listOf fault item (Element.text fault) .ok

def listField {σ α : Type} (name : String) (read : Element → Except ReadError (List α))
    (set : List α → σ → σ) : Xml.Field σ :=
  .single name fun _ first record => do
    return set (← read first) record

def column : Element → Except ReadError Column :=
  Xml.readRecord fault
    [ optionalText fault "HeaderLabel" fun x c => { c with label := x },
      word fault "HeaderWidth" width fun x c => { c with width := x },
      word fault "HeaderAlignment" alignment fun x c => { c with alignment := x },
      word fault "HeaderOrder" order fun x c => { c with order := x },
      word fault "Sensitive" flag fun x c => { c with sensitive := x },
      optionalText fault "ScriptBlock" fun x c => { c with script := x },
      optionalText fault "PropertyName" fun x c => { c with property := x } ]
    Column.blank

def block : Element → Except ReadError Block :=
  Xml.readRecord fault
    [ listField "ApplicableTypes" (texts fault "Type") fun x b => { b with types := x },
      listField "Columns"
        (listOf fault "ColumnConfig" (column fault) fun s =>
          .error (mismatch s "struct ColumnConfig"))
        fun x b => { b with columns := x },
      optionalText fault "PropertiesType" fun x b => { b with reflected := x },
      listField "SkipProperties" (texts fault "Property") fun x b => { b with skipped := x } ]
    Block.blank

def fields : List (Xml.Field Manifest) :=
  [ listField "NamespacesToExclude" (texts fault "Namespace") fun x m =>
      { m with namespacesToExclude := x },
    listField "TypesToInclude" (texts fault "Type") fun x m => { m with typesToInclude := x },
    listField "TypesToExclude" (texts fault "Type") fun x m => { m with typesToExclude := x },
    listField "Configs"
      (listOf fault "ConfigModel" (block fault) fun s => .error (mismatch s "struct ConfigModel"))
      fun x m => { m with blocks := x } ]

end Manifest

def Manifest.ofText (text : String) : Except ReadError Manifest :=
  let doc := Xml.Document.ofText text
  Xml.readRoot doc "ConfigModelCollection" (Manifest.fields doc.fault) Manifest.blank

end CmdletForge.Display
