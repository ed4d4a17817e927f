import CmdletForge.Xml.Markup

/-!
# CmdletForge.Xml.Attribute

The attributes of a tag.

1. An attribute is a key, `=`, and a value between single or double quotes; there may be blanks
   around the `=`.  A key may not occur twice.
2. Offsets are bytes from the start of the name of the tag.
3. Behind a fault the attributes go on where the next one may begin, if that can be told.
4. Attributes bind prefixes to namespaces.  The prefix `xmlns` cannot be bound, and neither can
   the namespaces of it and of `xml` be bound to any other prefix.
-/

namespace CmdletForge.Xml

/-- What is wrong with an attribute, and where. -/
inductive AttributeFault where
  | expectedEquals (offset : Nat)
  | expectedValue (offset : Nat)
  | unquotedValue (offset : Nat)
  | expectedQuote (offset : Nat) (quote : Char)
  | duplicated (offset earlier : Nat)
  deriving DecidableEq, Repr

/-- The text of a fault, without its kind. -/
def AttributeFault.cause : AttributeFault → String
  | .expectedEquals offset =>
    "position " ++ toString offset ++
      ": attribute key must be directly followed by `=` or space"
  | .expectedValue offset =>
    "position " ++ toString offset ++ ": `=` must be followed by an attribute value"
  | .unquotedValue offset =>
    "position " ++ toString offset ++ ": attribute value must be enclosed in `\"` or `'`"
  | .expectedQuote offset quote =>
    "position " ++ toString offset ++ ": missing closing quote `" ++ String.singleton quote ++
      "` in attribute value"
  | .duplicated offset earlier =>
    "position " ++ toString offset ++ ": duplicated attribute, previous declaration at position " ++
      toString earlier

def AttributeFault.message (f : AttributeFault) : String :=
  "error while parsing attribute: " ++ f.cause

/-- An attribute as it is written. -/
structure Attribute where
  key : List Char
  value : List Char
  deriving DecidableEq, Repr

/-! ## Reading -/

/-- A place in a tag. -/
structure TagPlace where
  rest : List Char
  offset : Nat

namespace TagPlace

/-- The characters of a class in front, and the place behind them. -/
def span (p : TagPlace) (class_ : Char → Bool) : List Char × TagPlace :=
  let taken := p.rest.takeWhile class_
  (taken, ⟨p.rest.dropWhile class_, p.offset + Text.width taken⟩)

/-- The place behind the blanks in front. -/
def skipSpace (p : TagPlace) : TagPlace := (p.span isSpace).2

/-- The place behind one character of one byte. -/
def next (p : TagPlace) : TagPlace := ⟨p.rest.drop 1, p.offset + 1⟩

/-- The key in front: it has at least one character and ends at an `=` or a blank. -/
def key (p : TagPlace) : List Char × TagPlace :=
  match p.rest with
  | [] => ([], p)
  | c :: rest =>
    let (more, after) :=
      (⟨rest, p.offset + c.utf8Size⟩ : TagPlace).span fun c => c != '=' && !isSpace c
    (c :: more, after)

/-- The place behind a value that is of no interest; none when the tag ends in it. -/
def skipValue? (p : TagPlace) : Option TagPlace :=
  let p := p.skipSpace
  match p.rest with
  | [] => none
  | q :: _ =>
    if q = '"' ∨ q = '\'' then
      let (_, after) := p.next.span (· != q)
      if after.rest.isEmpty then none else some after.next
    else
      let (_, after) := p.span fun c => !isSpace c
      if after.rest.isEmpty then none else some after

end TagPlace

/-- The attributes from a place on, and the faults between them; `keys` holds the keys before
it with their offsets, and `unique` tells whether none of them may come again.  Each step takes an
attribute. -/
def attributesFrom (unique : Bool) (keys : List (List Char × Nat)) (p : TagPlace) :
    (steps : Nat) → List (Except AttributeFault Attribute)
  | 0 => []
  | steps + 1 =>
    let p := p.skipSpace
    if p.rest.isEmpty then []
    else
      let (key, behind) := p.key
      let sign := behind.skipSpace
      match sign.rest with
      | '=' :: _ =>
        match if unique then keys.lookup key else none with
        | some earlier =>
          .error (.duplicated p.offset earlier) ::
            match sign.next.skipValue? with
            | some p => attributesFrom unique keys p steps
            | none => []
        | none =>
          let keys := (key, p.offset) :: keys
          let value := sign.next.skipSpace
          match value.rest with
          | [] => [.error (.expectedValue value.offset)]
          | q :: _ =>
            if q = '"' ∨ q = '\'' then
              let (inside, after) := value.next.span (· != q)
              if after.rest.isEmpty then [.error (.expectedQuote after.offset q)]
              else .ok ⟨key, inside⟩ :: attributesFrom unique keys after.next steps
            else
              .error (.unquotedValue value.offset) ::
                match value.skipValue? with
                | some p => attributesFrom unique keys p steps
                | none => []
      | [] => [.error (.expectedEquals sign.offset)]
      | _ => .error (.expectedEquals sign.offset) :: attributesFrom unique keys sign steps

/-- The attributes of a tag, and the faults between them; `unique` tells whether a key that comes
again is one. -/
def attributes (unique : Bool) (content : List Char) : List (Except AttributeFault Attribute) :=
  let (_, p) := (⟨content, 0⟩ : TagPlace).span fun c => !isSpace c
  attributesFrom unique [] p (content.length + 1)

/-- The first fault in the attributes of a tag. -/
def attributeFault? (content : List Char) : Option AttributeFault :=
  (attributes true content).findSome? fun
    | .error f => some f
    | .ok _ => none

/-! ## Namespaces -/

/-- The prefix of a name, when it has one, and the local part. -/
def splitName (name : List Char) : Option (List Char) × List Char :=
  match name.dropWhile (· ≠ ':') with
  | _ :: localPart => (some (name.takeWhile (· ≠ ':')), localPart)
  | [] => (none, name)

/-- The name of a tag without its prefix. -/
def localName (content : List Char) : List Char := (splitName (tagName content)).2

/-- What prefixes are bound to, the innermost binding first. -/
abbrev Bindings := List (List Char × List Char)

/-- The bindings that a tag adds, up to its first fault, in the order of the text. -/
def declarations (content : List Char) : Bindings :=
  ((attributes false content).takeWhile fun a => a.toOption.isSome).filterMap fun
    | .ok a =>
      match splitName a.key with
      | (some p, name) => if p = "xmlns".toList then some (name, a.value) else none
      | _ => none
    | .error _ => none

/-- The bindings that a tag adds, the last one first. -/
def bindings (content : List Char) : Bindings := (declarations content).reverse

/-- The namespace of the prefix `xml`. -/
def xmlNamespace : List Char := "http://www.w3.org/XML/1998/namespace".toList

/-- The namespace of the prefix `xmlns`. -/
def bindingNamespace : List Char := "http://www.w3.org/2000/xmlns/".toList

/-- A prefix that cannot be bound to a namespace. -/
structure NamespaceFault where
  boundPrefix : List Char
  namespace_ : List Char
  deriving DecidableEq, Repr

/-- Why a prefix cannot be bound to a namespace. -/
def namespaceFaultOf? : List Char × List Char → Option NamespaceFault
  | (p, n) =>
    let reserved := n = xmlNamespace ∨ n = bindingNamespace
    if p = "xml".toList then if n = xmlNamespace then none else some ⟨p, n⟩
    else if p = "xmlns".toList ∨ reserved then some ⟨p, n⟩
    else none

/-- The first prefix in a tag that cannot be bound as the tag says. -/
def namespaceFault? (content : List Char) : Option NamespaceFault :=
  (declarations content).findSome? namespaceFaultOf?

/-- The namespace of the attribute that says that an element is absent. -/
def instanceNamespace : List Char := "http://www.w3.org/2001/XMLSchema-instance".toList

/-- Whether a tag says that its element is absent. -/
def isNil (bound : Bindings) (content : List Char) : Bool :=
  (attributes true content).any fun
    | .ok a =>
      match splitName a.key with
      | (some p, name) =>
        name == "nil".toList && bound.lookup p == some instanceNamespace &&
          (a.value == "1".toList || a.value == "true".toList)
      | _ => false
    | .error _ => false

end CmdletForge.Xml
