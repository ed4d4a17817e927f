import CmdletForge.Yaml.Tokens

/-!
# CmdletForge.Yaml.Event

The events that the tokens of a text spell by its grammar.

1. An event is the start or end of a stream, document, sequence or mapping, a scalar or an alias.
   In a mapping keys and values take turns; one that is left out is an empty plain scalar.
2. A tag is written out with what its handle stands for.  The lone `!` on a scalar says nothing.
3. The grammar is a machine: `Grammar.next` gives one event and what is expected behind it, and
   sees the fault of the tokens only when it asks for a token that is not there.
-/

namespace CmdletForge.Yaml

/-- A scalar with its anchor and tag. -/
structure ScalarEvent where
  anchor : Option String
  tag : Option String
  text : String
  style : Style
  deriving DecidableEq, Repr

/-- An event. -/
inductive Event where
  | streamStart
  | streamEnd
  | documentStart
  | documentEnd
  | alias (name : String)
  | scalar (s : ScalarEvent)
  | sequenceStart (anchor : Option String)
  | sequenceEnd
  | mappingStart (anchor : Option String)
  | mappingEnd
  deriving DecidableEq, Repr

/-- What is expected next. -/
inductive Expecting where
  | stream
  | implicitDocument
  | document
  | content
  | documentEnd
  | node
  | firstItem
  | item
  | indentlessItem
  | firstKey
  | key
  | value
  | firstFlowItem
  | flowItem
  | pairKey
  | pairValue
  | pairEnd
  | firstFlowKey
  | flowKey
  | flowValue
  | emptyFlowValue
  | nothing
  deriving DecidableEq, Repr

/-- The tokens that are left, and what is expected of them. -/
structure Grammar where
  tokens : List Token
  /-- The fault behind the last token. -/
  fault : Fault
  expecting : Expecting
  /-- What is expected behind the open collections, the innermost first. -/
  outer : List Expecting
  /-- Where the open collections began, the innermost first. -/
  starts : List Mark
  /-- What the tag handles stand for. -/
  handles : List (String × String)

namespace Grammar

/-! ## Tokens -/

def peek (g : Grammar) : Except Fault Token :=
  match g.tokens with
  | token :: _ => .ok token
  | [] => .error g.fault

def skip (g : Grammar) : Grammar := { g with tokens := g.tokens.drop 1 }

/-- Comes back to what is expected behind the innermost collection. -/
def back (g : Grammar) : Grammar :=
  { g with expecting := g.outer.headD .nothing, outer := g.outer.drop 1 }

/-- Expects `e` next, for the rest of the present collection. -/
def expect (g : Grammar) (e : Expecting) : Grammar := { g with expecting := e }

/-- Expects `e` behind the node that comes next. -/
def behind (g : Grammar) (e : Expecting) : Grammar := { g with outer := e :: g.outer }

/-- Enters a collection that begins with the next token. -/
def enter (g : Grammar) : Except Fault Grammar := do
  let token ← g.peek
  return { g.skip with starts := token.start :: g.starts }

def leave (g : Grammar) : Grammar := { g.back with starts := g.starts.drop 1 }

/-- Where the innermost collection began. -/
def start (g : Grammar) : Mark := g.starts.headD .start

/-- An event, its place, and what follows. -/
abbrev Step := Except Fault ((Event × Mark) × Grammar)

/-- A scalar that was left out. -/
def emptyScalar (mark : Mark) (g : Grammar) : Step :=
  .ok ((.scalar ⟨none, none, "", .plain⟩, mark), g)

/-! ## Nodes -/

/-- The anchor and the tag of a node. -/
structure Properties where
  anchor : Option String
  /-- The handle, suffix and place of the tag. -/
  tag : Option (String × String × Mark)
  /-- Where they begin. -/
  start : Option Mark

/-- Reads the anchor and the tag in front of a node, in either order. -/
def properties (g : Grammar) : Except Fault (Properties × Grammar) := do
  let first ← g.peek
  match first.kind with
  | .anchor name =>
    let g := g.skip
    let second ← g.peek
    match second.kind with
    | .tag handle suffix =>
      return (⟨some name, some (handle, suffix, second.start), some first.start⟩, g.skip)
    | _ => return (⟨some name, none, some first.start⟩, g)
  | .tag handle suffix =>
    let g := g.skip
    let second ← g.peek
    match second.kind with
    | .anchor name =>
      return (⟨some name, some (handle, suffix, first.start), some first.start⟩, g.skip)
    | _ => return (⟨none, some (handle, suffix, first.start), some first.start⟩, g)
  | _ => return (⟨none, none, none⟩, g)

/-- A tag written out. -/
def resolveTag (g : Grammar) (start : Mark) :
    Option (String × String × Mark) → Except Fault (Option String)
  | none => .ok none
  | some (handle, suffix, mark) =>
    if handle.isEmpty then .ok (some suffix)
    else
      match g.handles.lookup handle with
      | some full => .ok (some (full ++ suffix))
      | none => .error (.within "while parsing a node" start "found undefined tag handle" mark)

/-- A node; `block` tells whether a block collection may stand here, and `indentless` whether
a sequence may whose hyphens stand on the column of the mapping around it. -/
def node (g : Grammar) (block indentless : Bool) : Step := do
  let token ← g.peek
  match token.kind with
  | .alias name => return ((.alias name, token.start), g.skip.back)
  | _ =>
    let (props, g) ← g.properties
    let token ← g.peek
    let start := props.start.getD token.start
    let tag ← g.resolveTag start props.tag
    let sequence := Event.sequenceStart props.anchor
    let mapping := Event.mappingStart props.anchor
    match token.kind, indentless, block with
    | .blockEntry, true, _ => return ((sequence, start), g.expect .indentlessItem)
    | .scalar text style, _, _ =>
      let tag := if tag = some "!" then none else tag
      return ((.scalar ⟨props.anchor, tag, text, style⟩, start), g.skip.back)
    | .flowSequenceStart, _, _ => return ((sequence, start), g.expect .firstFlowItem)
    | .flowMappingStart, _, _ => return ((mapping, start), g.expect .firstFlowKey)
    | .blockSequenceStart, _, true => return ((sequence, start), g.expect .firstItem)
    | .blockMappingStart, _, true => return ((mapping, start), g.expect .firstKey)
    | _, _, _ =>
      if props.start.isSome then
        return ((.scalar ⟨props.anchor, tag, "", .plain⟩, start), g.back)
      else
        throw (.within
          (if block then "while parsing a block node" else "while parsing a flow node") start
          "did not find expected node content" token.start)

/-! ## Documents -/

/-- Reads the directives of a document; each step takes a token. -/
def directives (g : Grammar) (version : Bool) : (steps : Nat) → Except Fault Grammar
  | 0 => .error g.fault
  | steps + 1 => do
    let token ← g.peek
    match token.kind with
    | .version major minor =>
      if version then throw (.alone "found duplicate %YAML directive" token.start)
      if major ≠ 1 ∨ (minor ≠ 1 ∧ minor ≠ 2) then
        throw (.alone "found incompatible YAML document" token.start)
      g.skip.directives true steps
    | .tagHandle handle full =>
      if (g.handles.lookup handle).isSome then
        throw (.alone "found duplicate %TAG directive" token.start)
      { g.skip with handles := g.handles ++ [(handle, full)] }.directives version steps
    | _ =>
      return { g with handles := g.handles ++ [("!", "!"), ("!!", "tag:yaml.org,2002:")] }

/-- The start of a document, or the end of the stream. -/
def document (g : Grammar) (implicit : Bool) : Step := do
  let g := if implicit then g else { g with tokens := g.tokens.dropWhile (·.kind = .documentEnd) }
  let token ← g.peek
  let explicit := match token.kind with
    | .version _ _ | .tagHandle _ _ | .documentStart => true
    | _ => false
  if token.kind = .streamEnd then
    return ((.streamEnd, token.start), g.skip.expect .nothing)
  else if implicit ∧ !explicit then
    let g ← g.directives false (g.tokens.length + 1)
    return ((.documentStart, token.start), (g.behind .documentEnd).expect .node)
  else
    let g ← g.directives false (g.tokens.length + 1)
    let marker ← g.peek
    if marker.kind ≠ .documentStart then
      throw (.alone "did not find expected <document start>" marker.start)
    return ((.documentStart, token.start), (g.behind .documentEnd).skip.expect .content)

/-- The content of a document behind its marker. -/
def content (g : Grammar) : Step := do
  let token ← g.peek
  match token.kind with
  | .version _ _ | .tagHandle _ _ | .documentStart | .documentEnd | .streamEnd =>
    emptyScalar token.start g.back
  | _ => g.node true false

def endDocument (g : Grammar) : Step := do
  let token ← g.peek
  let g := if token.kind = .documentEnd then g.skip else g
  return ((.documentEnd, token.start), { g with handles := [], expecting := .document })

/-! ## Block collections -/

def blockItem (g : Grammar) : Step := do
  let token ← g.peek
  match token.kind with
  | .blockEntry =>
    let g := g.skip
    match (← g.peek).kind with
    | .blockEntry | .blockEnd => emptyScalar token.stop (g.expect .item)
    | _ => (g.behind .item).node true false
  | .blockEnd => return ((.sequenceEnd, token.start), g.leave.skip)
  | _ =>
    throw (.within "while parsing a block collection" g.start
      "did not find expected '-' indicator" token.start)

/-- An item of a sequence without an indentation of its own, or its end. -/
def indentlessItem (g : Grammar) : Step := do
  let token ← g.peek
  match token.kind with
  | .blockEntry =>
    let g := g.skip
    match (← g.peek).kind with
    | .blockEntry | .key | .value | .blockEnd =>
      emptyScalar token.stop (g.expect .indentlessItem)
    | _ => (g.behind .indentlessItem).node true false
  | _ => return ((.sequenceEnd, token.start), g.back)

/-- The node of a key or value in a block mapping, or the scalar that was left out. -/
def blockPart (g : Grammar) (mark : Mark) (next : Expecting) : Step := do
  match (← g.peek).kind with
  | .key | .value | .blockEnd => emptyScalar mark (g.expect next)
  | _ => (g.behind next).node true true

def blockKey (g : Grammar) : Step := do
  let token ← g.peek
  match token.kind with
  | .key => g.skip.blockPart token.stop .value
  | .blockEnd => return ((.mappingEnd, token.start), g.leave.skip)
  | _ =>
    throw (.within "while parsing a block mapping" g.start "did not find expected key" token.start)

def blockValue (g : Grammar) : Step := do
  let token ← g.peek
  match token.kind with
  | .value => g.skip.blockPart token.stop .key
  | _ => emptyScalar token.start (g.expect .key)

/-! ## Flow collections -/

/-- Passes over the comma in front of all but the first part of a flow collection. -/
def comma (g : Grammar) (first : Bool) (close : Kind) (context problem : String) :
    Except Fault Grammar := do
  let token ← g.peek
  if first ∨ token.kind = close then return g
  else if token.kind = .flowEntry then return g.skip
  else throw (.within context g.start problem token.start)

def flowItem (g : Grammar) (first : Bool) : Step := do
  let g ← g.comma first .flowSequenceEnd "while parsing a flow sequence"
    "did not find expected ',' or ']'"
  let token ← g.peek
  match token.kind with
  | .key => return ((.mappingStart none, token.start), g.skip.expect .pairKey)
  | .flowSequenceEnd => return ((.sequenceEnd, token.start), g.leave.skip)
  | _ => (g.behind .flowItem).node false false

/-- The key of a single pair in a flow sequence.  Where it is left out, the token behind it is
passed over. -/
def pairKey (g : Grammar) : Step := do
  let token ← g.peek
  match token.kind with
  | .value | .flowEntry | .flowSequenceEnd => emptyScalar token.stop (g.skip.expect .pairValue)
  | _ => (g.behind .pairValue).node false false

/-- The value of a single pair in a flow sequence. -/
def pairValue (g : Grammar) : Step := do
  let token ← g.peek
  if token.kind = .value then
    let g := g.skip
    let token ← g.peek
    match token.kind with
    | .flowEntry | .flowSequenceEnd => emptyScalar token.start (g.expect .pairEnd)
    | _ => (g.behind .pairEnd).node false false
  else emptyScalar token.start (g.expect .pairEnd)

/-- The end of a single pair in a flow sequence. -/
def pairEnd (g : Grammar) : Step := do
  let token ← g.peek
  return ((.mappingEnd, token.start), g.expect .flowItem)

def flowKey (g : Grammar) (first : Bool) : Step := do
  let g ← g.comma first .flowMappingEnd "while parsing a flow mapping"
    "did not find expected ',' or '\x7d'"
  let token ← g.peek
  match token.kind with
  | .key =>
    let g := g.skip
    let token ← g.peek
    match token.kind with
    | .value | .flowEntry | .flowMappingEnd => emptyScalar token.start (g.expect .flowValue)
    | _ => (g.behind .flowValue).node false false
  | .flowMappingEnd => return ((.mappingEnd, token.start), g.leave.skip)
  | _ => (g.behind .emptyFlowValue).node false false

def flowValue (g : Grammar) : Step := do
  let token ← g.peek
  if token.kind = .value then
    let g := g.skip
    let token ← g.peek
    match token.kind with
    | .flowEntry | .flowMappingEnd => emptyScalar token.start (g.expect .flowKey)
    | _ => (g.behind .flowKey).node false false
  else emptyScalar token.start (g.expect .flowKey)

/-! ## The machine -/

def next (g : Grammar) : Step :=
  match g.expecting with
  | .stream => do
    let token ← g.peek
    return ((.streamStart, token.start), g.skip.expect .implicitDocument)
  | .implicitDocument => g.document true
  | .document => g.document false
  | .content => g.content
  | .documentEnd => g.endDocument
  | .node => g.node true false
  | .firstItem => do (← g.enter).blockItem
  | .item => g.blockItem
  | .indentlessItem => g.indentlessItem
  | .firstKey => do (← g.enter).blockKey
  | .key => g.blockKey
  | .value => g.blockValue
  | .firstFlowItem => do (← g.enter).flowItem true
  | .flowItem => g.flowItem false
  | .pairKey => g.pairKey
  | .pairValue => g.pairValue
  | .pairEnd => g.pairEnd
  | .firstFlowKey => do (← g.enter).flowKey true
  | .flowKey => g.flowKey false
  | .flowValue => g.flowValue
  | .emptyFlowValue => do emptyScalar (← g.peek).start (g.expect .flowKey)
  | .nothing => .error g.fault

/-- All events, and the fault that ends them early. -/
def run (g : Grammar) : (steps : Nat) → List (Event × Mark) × Option Fault
  | 0 => ([], none)
  | steps + 1 =>
    if g.expecting = .nothing then ([], none)
    else
      match g.next with
      | .error f => ([], some f)
      | .ok (event, g) =>
        let (events, fault) := g.run steps
        (event :: events, fault)

end Grammar

/-- The events of the tokens of a text, and the fault that ends them early. -/
def events (cs : List Char) : List (Event × Mark) × Option Fault :=
  let (tokens, fault) := tokens cs
  let g : Grammar := ⟨tokens, fault.getD (.alone "" .start), .stream, [], [], []⟩
  g.run (4 * tokens.length + 4)

end CmdletForge.Yaml
