import CmdletForge.Shape.Mismatch
import CmdletForge.Xml.Attribute
import CmdletForge.Xml.Tree

/-!
# CmdletForge.Xml.Typed

Readers for what elements hold.

1. An element is read as a text, or as a record whose fields are its child elements, known by
   their names without prefix.  The attributes of a record are checked and not used.
2. A field is read from one element, or, when it is a list, from all the elements of the same
   full name that follow each other; a text between or behind them is an item too.
3. Unknown elements are skipped and texts between fields are ignored.  A known field that comes
   twice is a mismatch.
4. The text is walked from its start to its end, and the first trouble ends the reading.
-/

namespace CmdletForge.Xml

/-- Why elements cannot be read. -/
inductive ReadError where
  | mismatch (m : Mismatch)
  | markup (t : Trouble)
  | entity (f : EntityFault)
  | attribute (f : AttributeFault)
  | unbindable (f : NamespaceFault)
  /-- An element stands where only text may. -/
  | nested (tag : List Char)
  | endOfText
  deriving DecidableEq, Repr

/-- The hexadecimal digits of a byte, large letters, without leading zeros. -/
def upperHex (n : Nat) : List Char := (Nat.toDigits 16 n).map fun c => c.toUpper

/-- How a message shows a byte of a name. -/
def shownByte (b : UInt8) : List Char :=
  let n := b.toNat
  if n = 34 then ['\\', '"']
  else if 32 ≤ n ∧ n ≤ 126 then [Char.ofNat n]
  else '0' :: 'x' :: upperHex n

def shownName (name : List Char) : String :=
  String.ofList ('"' :: (String.ofList name).toUTF8.data.toList.flatMap shownByte ++ ['"'])

/-- The text of a fault of a prefix. -/
def NamespaceFault.message (f : NamespaceFault) : String :=
  let fixed := f.boundPrefix = "xml".toList ∨ f.boundPrefix = "xmlns".toList
  "the namespace prefix '" ++
    (if fixed then String.ofList f.boundPrefix else shownName f.boundPrefix) ++
    "' cannot be bound to '" ++
    (if fixed then shownName f.namespace_ else String.ofList f.namespace_) ++ "'"

def ReadError.message : ReadError → String
  | .mismatch m => m.message
  | .markup t => t.message
  | .entity f => f.message
  | .attribute f => f.message
  | .unbindable f => f.message
  | .nested tag => "unexpected `Event::Start(" ++ shownName (tagName tag) ++ ")`"
  | .endOfText => "unexpected `Event::Eof`"

/-- What lies behind an error: a fault of the text as a whole, what it is, and a number in it
that cannot be read. -/
def ReadError.causes : ReadError → List String
  | .markup t => [t.message, t.cause]
  | .entity f =>
    f.message :: f.message ::
      match f with
      | .code t => t.message :: t.digits?.toList
      | _ => []
  | .attribute f => [f.message, f.cause]
  | .unbindable f => [f.message, f.message]
  | .mismatch _ | .nested _ | .endOfText => []

/-! ## Elements -/

/-- An element with what its prefixes are bound to. -/
structure Element where
  tag : List Char
  children : List Node
  bound : Bindings

/-- Whether the prefixes in a tag can be bound as it says. -/
def checkTag (tag : List Char) : Except ReadError Unit :=
  match namespaceFault? tag with
  | some f => .error (.unbindable f)
  | none => .ok ()

/-- Whether the element in front, if there is one, can be met. -/
def checkFront : List Node → Except ReadError Unit
  | .element tag _ :: _ => checkTag tag
  | _ => .ok ()

def Element.child (e : Element) (tag : List Char) (children : List Node) : Element :=
  ⟨tag, children, bindings tag ++ e.bound⟩

namespace Element

/-- The error where an element is cut off. -/
def ending (fault : Option Fault) (e : Element) : ReadError :=
  match fault with
  | some f => .markup f.trouble
  | none => .markup (.missedEnd (tagName e.tag))

/-- The text of an element that holds nothing else. -/
def text (fault : Option Fault) (e : Element) : Except ReadError String :=
  match e.children with
  | [] => .ok ""
  | .text t :: rest => do
    let cs ← t.mapError .entity
    checkFront rest
    match rest with
    | .element tag _ :: _ => .error (.nested tag)
    | .cut :: _ => .error (e.ending fault)
    | _ => return String.ofList cs
  | .element tag _ :: _ => do
    checkTag tag
    .error (.nested tag)
  | .cut :: _ => .error (e.ending fault)

/-- Passes over an element.  Only what comes at its very beginning, and behind its first child, is
looked at. -/
def skip (fault : Option Fault) (e : Element) : Except ReadError Unit := do
  match e.children with
  | .text (.error f) :: _ => throw (.entity f)
  | .text (.ok _) :: rest => checkFront rest
  | .element tag children :: rest =>
    checkTag tag
    checkFront children
    if anyCut children then throw ((e.child tag children).ending fault)
    checkFront rest
  | _ => pure ()
  if anyCut e.children then throw (e.ending fault)

end Element

/-! ## Fields -/

/-- A field of a record of type `σ`: its name, and how it is read from its first element and
the nodes behind it, in the element around it.  Answered are the record and the nodes that
are left. -/
structure Field (σ : Type) where
  name : String
  read : (owner : Element) → (first : Element) → (rest : List Node) → σ →
    Except ReadError (σ × List Node)

/-- A field that is read from one element. -/
def Field.single {σ : Type} (name : String)
    (read : (owner first : Element) → σ → Except ReadError σ) : Field σ :=
  ⟨name, fun owner first rest record => (read owner first record).map fun r => (r, rest)⟩

/-- The items of a list: those of the elements with the full name `name` in front, and of the
texts between and behind them; and the nodes that are left. -/
def runItems {α : Type} (fault : Option Fault) (owner : Element) (name : List Char)
    (readElement : Element → Except ReadError α) (readText : String → Except ReadError α) :
    List Node → Except ReadError (List α × List Node)
  | [] => .ok ([], [])
  | .text t :: rest => do
    let item ← readText (String.ofList (← t.mapError .entity))
    let (items, rest) ← runItems fault owner name readElement readText rest
    return (item :: items, rest)
  | .element tag children :: rest => do
    checkTag tag
    if tagName tag = name then
      let item ← readElement (owner.child tag children)
      let (items, rest) ← runItems fault owner name readElement readText rest
      return (item :: items, rest)
    else return ([], .element tag children :: rest)
  | .cut :: _ => .error (owner.ending fault)

def Field.list {σ α : Type} (fault : Option Fault) (name : String)
    (readElement : Element → Except ReadError α) (readText : String → Except ReadError α)
    (set : List α → σ → σ) : Field σ :=
  ⟨name, fun owner first rest record => do
    let (items, rest) ← runItems fault owner (tagName first.tag) readElement readText
      (.element first.tag first.children :: rest)
    return (set items record, rest)⟩

/-! ## Records -/

/-- Reads the fields of a record from the nodes that are left of its element; `seen` holds the
names of those that were read.  Each step takes a node. -/
def readFields {σ : Type} (fault : Option Fault) (fields : List (Field σ)) (owner : Element)
    (seen : List String) (record : σ) (nodes : List Node) :
    (steps : Nat) → Except ReadError σ
  | 0 => .ok record
  | steps + 1 =>
    match nodes with
    | [] => .ok record
    | .cut :: _ => .error (owner.ending fault)
    | .text t :: rest => do
      let _ ← t.mapError .entity
      readFields fault fields owner seen record rest steps
    | .element tag children :: rest => do
      checkTag tag
      let element := owner.child tag children
      let name := String.ofList (localName tag)
      match fields.find? (·.name = name) with
      | none =>
        element.skip fault
        readFields fault fields owner seen record rest steps
      | some field =>
        if seen.contains name then .error (.mismatch (.duplicateField name))
        else
          let (record, rest) ← field.read owner element rest record
          readFields fault fields owner (name :: seen) record rest steps

def readRecord {σ : Type} (fault : Option Fault) (fields : List (Field σ)) (blank : σ)
    (e : Element) : Except ReadError σ :=
  match attributeFault? e.tag with
  | some f => .error (.attribute f)
  | none => readFields fault fields e [] blank e.children (e.children.length + 1)

/-- Reads the root element of a document as the record `name`. -/
def readRoot {σ : Type} (doc : Document) (name : String) (fields : List (Field σ)) (blank : σ) :
    Except ReadError σ :=
  match doc.nodes with
  | .element tag children :: _ => do
    checkTag tag
    readRecord doc.fault fields blank ⟨tag, children, bindings tag⟩
  | .text t :: _ => do
    let cs ← t.mapError .entity
    .error (.mismatch (.invalidType (.text (String.ofList cs)) ("struct " ++ name)))
  | _ =>
    match doc.fault with
    | some f => .error (.markup f.trouble)
    | none => .error .endOfText

end CmdletForge.Xml
