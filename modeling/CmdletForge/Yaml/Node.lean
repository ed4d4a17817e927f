import CmdletForge.Yaml.Event

/-!
# CmdletForge.Yaml.Node

The first document of a text as a tree.

1. Where the text stops being YAML the tree holds a `cut` node, and with it ends every
   collection that was open.
2. Aliases stay in the tree.  An anchor gets as its number the count of different names before
   it, and an alias means the last node of the document with the number that its name has at
   the alias.
3. A text without a document holds `nothing`.
-/

namespace CmdletForge.Yaml

/-- A node of a document. -/
inductive Node where
  | scalar (mark : Mark) (anchor : Option Nat) (tag : Option String) (text : String) (style : Style)
  | sequence (mark : Mark) (anchor : Option Nat) (items : List Node)
  /-- The keys and values take turns. -/
  | mapping (mark : Mark) (anchor : Option Nat) (parts : List Node)
  | alias (mark : Mark) (number : Nat)
  | nothing
  | cut

/-- Why a document ends early. -/
inductive Stop where
  | fault (f : Fault)
  | unknownAnchor (mark : Mark)

/-! ## Anchors -/

/-- A node as the meaning of its number. -/
def Node.self (anchor : Option Nat) (n : Node) : List (Nat × Node) :=
  match anchor with
  | some number => [(number, n)]
  | none => []

mutual

/-- The anchored nodes of a tree with their numbers, in the order of the text. -/
def Node.anchored : Node → List (Nat × Node)
  | .scalar mark anchor tag text style => Node.self anchor (.scalar mark anchor tag text style)
  | .sequence mark anchor items =>
    Node.self anchor (.sequence mark anchor items) ++ anchoredIn items
  | .mapping mark anchor parts =>
    Node.self anchor (.mapping mark anchor parts) ++ anchoredIn parts
  | .alias _ _ | .nothing | .cut => []

/-- The anchored nodes of the parts of a collection. -/
def anchoredIn : List Node → List (Nat × Node)
  | [] => []
  | n :: rest => n.anchored ++ anchoredIn rest

end

/-- The keys of a mapping with their values. -/
def entries : List Node → List (Node × Node)
  | key :: value :: rest => (key, value) :: entries rest
  | [key] => [(key, .cut)]
  | [] => []

/-! ## Reading events -/

/-- The events that are left of a document, and what was met so far. -/
structure Reading where
  events : List (Event × Mark)
  /-- Why there are no more events. -/
  stop : Option Stop
  /-- How many nodes and ends of collections have been read. -/
  size : Nat
  /-- The numbers of the names of anchors. -/
  names : List (String × Nat)

namespace Reading

def skip (r : Reading) : Reading := { r with events := r.events.drop 1, size := r.size + 1 }

def anchor (r : Reading) (name : Option String) : Option Nat × Reading :=
  match name with
  | none => (none, r)
  | some name =>
    let number := r.names.length
    (some number, { r with names := (r.names.filter (·.1 ≠ name)) ++ [(name, number)] })

mutual

/-- The next node.  Each step takes an event. -/
def node (r : Reading) : (steps : Nat) → Node × Reading
  | 0 => (.cut, r)
  | steps + 1 =>
    match r.events with
    | [] => (.cut, r)
    | (event, mark) :: _ =>
      match event with
      | .scalar s =>
        let (anchor, r) := r.skip.anchor s.anchor
        (.scalar mark anchor s.tag s.text s.style, r)
      | .alias name =>
        match r.names.lookup name with
        | some number => (.alias mark number, r.skip)
        | none => (.cut, { r with events := [], stop := some (.unknownAnchor mark) })
      | .sequenceStart name =>
        let (anchor, r) := r.skip.anchor name
        let (items, r) := r.parts steps
        (.sequence mark anchor items, r)
      | .mappingStart name =>
        let (anchor, r) := r.skip.anchor name
        let (parts, r) := r.parts steps
        (.mapping mark anchor parts, r)
      | _ => (.cut, r)

/-- The parts of a collection up to its end. -/
def parts (r : Reading) : (steps : Nat) → List Node × Reading
  | 0 => ([.cut], r)
  | steps + 1 =>
    match r.events with
    | [] => ([.cut], r)
    | (.sequenceEnd, _) :: _ | (.mappingEnd, _) :: _ => ([], r.skip)
    | _ =>
      let (part, r) := r.node steps
      let (parts, r) := r.parts steps
      (part :: parts, r)

end

end Reading

/-! ## Documents -/

/-- The first document of a text. -/
structure Document where
  root : Node
  /-- Why it ends early. -/
  stop : Option Stop
  /-- How many events it has. -/
  size : Nat
  /-- Whether anything but the end of the text comes behind it. -/
  followed : Bool

def Document.ofEvents (events : List (Event × Mark)) (fault : Option Fault) : Document :=
  let stop := fault.map Stop.fault
  match events.dropWhile (·.1 = .streamStart) with
  | (.documentStart, _) :: rest =>
    let (root, r) := Reading.node ⟨rest, stop, 0, []⟩ (rest.length + 1)
    match r.events with
    | (.documentEnd, _) :: rest =>
      ⟨root, none, r.size, (rest.head?.map (·.1)) != some .streamEnd⟩
    | _ => ⟨root, r.stop, r.size, false⟩
  | (.streamEnd, _) :: _ => ⟨.nothing, none, 1, false⟩
  | _ => ⟨.cut, stop, 0, false⟩

/-! ## Characters -/

/-- Whether a character may stand in a text. -/
def isAllowed (c : Char) : Bool :=
  let n := c.toNat
  n == 0x09 || n == 0x0A || n == 0x0D || (0x20 ≤ n && n ≤ 0x7E) || n == 0x85 ||
    (0xA0 ≤ n && n ≤ 0xD7FF) || (0xE000 ≤ n && n ≤ 0xFFFD && n ≠ 0xFEFF) ||
    (0x10000 ≤ n && n ≤ 0x10FFFF)

/-- The byte offset of the first character that may not stand in a text. -/
def refused? (offset : Nat) : List Char → Option Nat
  | [] => none
  | c :: cs => if isAllowed c then refused? (offset + c.utf8Size) cs else some offset

/-- The first document of a text.  A byte order mark in front is passed over. -/
def Document.ofText (text : String) : Document :=
  let (cs, offset) := match text.toList with
    | '\uFEFF' :: cs => (cs, 3)
    | cs => (cs, 0)
  match refused? offset cs with
  | some offset => ⟨.cut, some (.fault (.character offset)), 0, false⟩
  | none =>
    let (events, fault) := events cs
    .ofEvents events fault

end CmdletForge.Yaml
