import CmdletForge.Yaml.Block
import CmdletForge.Yaml.Property

/-!
# CmdletForge.Yaml.Tokens

A text cut into tokens.

1. Indentation becomes tokens: a block collection starts where a column deeper than the open
   ones is met, and ends at the first token on a column that is not as deep.
2. Whether a scalar is a key is known only at the colon behind it.  A place where a key may
   begin is kept, one for each open flow collection, as long as its line lasts and for 1024
   characters; the colon puts the key token in front of everything that was read since.
3. So tokens wait in a queue while one of them may still turn out to begin a key.
-/

namespace CmdletForge.Yaml

/-- A place where a key may begin that has no `?` in front. -/
structure SimpleKey where
  /-- Whether only a key can stand there. -/
  required : Bool
  /-- How many tokens come before it. -/
  number : Nat
  mark : Mark
  deriving DecidableEq, Repr

/-- A text in the middle of being cut. -/
structure Scanner where
  cursor : Cursor
  started : Bool
  /-- The tokens that have left the queue. -/
  done : Array Token
  queue : List Token
  /-- The column of the innermost block collection, -1 outside of all. -/
  indent : Int
  /-- The columns of the block collections around it. -/
  indents : List Int
  /-- Whether a key may begin here. -/
  keyAllowed : Bool
  /-- The possible keys: of the innermost flow collection first, of the block last. -/
  keys : List (Option SimpleKey)
  ended : Bool

namespace Scanner

def ofCursor (c : Cursor) : Scanner := ⟨c, false, #[], [], -1, [], false, [], false⟩

/-- Whether a flow collection is open. -/
def inFlow (s : Scanner) : Bool := 1 < s.keys.length

/-- The place as a token's start and stop. -/
def mark (s : Scanner) : Mark := s.cursor.mark

/-- Puts a token at the end of the queue. -/
def enqueue (s : Scanner) (kind : Kind) (start stop : Mark) : Scanner :=
  { s with queue := s.queue ++ [⟨kind, start, stop⟩] }

/-- Puts a token in front of all that follow the first `number` tokens. -/
def insert (s : Scanner) (number : Nat) (kind : Kind) (mark : Mark) : Scanner :=
  let at_ := number - s.done.size
  { s with queue := s.queue.take at_ ++ ⟨kind, mark, mark⟩ :: s.queue.drop at_ }

/-- Reads `n` characters as a token. -/
def take (s : Scanner) (n : Nat) (kind : Kind) : Scanner :=
  let c := s.cursor.skip n
  { s with cursor := c }.enqueue kind s.mark c.mark

/-! ## Keys -/

/-- The fault of a place where only a key can stand and none does. -/
def missingColon (key : SimpleKey) (mark : Mark) : Fault :=
  .within "while scanning a simple key" key.mark "could not find expected ':'" mark

/-- Whether it is too late for the colon of a key. -/
def isStale (key : SimpleKey) (mark : Mark) : Bool :=
  key.mark.line < mark.line || key.mark.index + 1024 < mark.index

/-- Forgets a possible key for which it is too late. -/
def dropStale (mark : Mark) : Option SimpleKey → Except Fault (Option SimpleKey)
  | none => .ok none
  | some key =>
    if !isStale key mark then .ok (some key)
    else if key.required then .error (missingColon key mark)
    else .ok none

/-- Forgets the possible keys for which it is too late, from the outermost one inwards. -/
def dropStaleKeys (s : Scanner) : Except Fault Scanner := do
  let keys ← s.keys.reverse.mapM (dropStale s.mark)
  return { s with keys := keys.reverse }

/-- Forgets the possible key of the innermost collection. -/
def forgetKey (s : Scanner) : Except Fault Scanner :=
  match s.keys with
  | some key :: outer =>
    if key.required then .error (missingColon key s.mark) else .ok { s with keys := none :: outer }
  | _ => .ok s

/-- Notes that a key may begin here, when one may. -/
def noteKey (s : Scanner) : Except Fault Scanner := do
  if !s.keyAllowed then return s
  let required := !s.inFlow && s.indent == (s.mark.column : Int)
  let key : SimpleKey := ⟨required, s.done.size + s.queue.length, s.mark⟩
  let s ← s.forgetKey
  return { s with keys := some key :: s.keys.drop 1 }

/-! ## Indentation -/

/-- Ends the block collections deeper than a column; at most `steps` of them. -/
def unrollTo (s : Scanner) (column : Int) : (steps : Nat) → Scanner
  | 0 => s
  | steps + 1 =>
    if column < s.indent then
      let s := s.enqueue .blockEnd s.mark s.mark
      unrollTo { s with indent := s.indents.headD (-1), indents := s.indents.drop 1 } column steps
    else s

/-- Ends the block collections deeper than a column, outside of flow collections. -/
def unroll (s : Scanner) (column : Int) : Scanner :=
  if s.inFlow then s else s.unrollTo column (s.indents.length + 1)

/-- Starts a block collection at a column that is deeper than the open ones, in front of the
token after the first `number` or at the end of the queue. -/
def roll (s : Scanner) (column : Nat) (number : Option Nat) (kind : Kind) (mark : Mark) : Scanner :=
  if s.inFlow ∨ (column : Int) ≤ s.indent then s
  else
    let s := { s with indent := column, indents := s.indent :: s.indents }
    match number with
    | some number => s.insert number kind mark
    | none => s.enqueue kind mark mark

/-! ## The kinds of tokens -/

def fetchEnd (s : Scanner) : Except Fault Scanner := do
  let m := s.mark
  let m : Mark := if m.column = 0 then m else ⟨m.index, m.line + 1, 0⟩
  let s := { s with cursor := { s.cursor with mark := m } }.unroll (-1)
  let s ← s.forgetKey
  return { s with keyAllowed := false, ended := true }.enqueue .streamEnd m m

def fetchDirective (s : Scanner) : Except Fault Scanner := do
  let s ← (s.unroll (-1)).forgetKey
  let (token, c) ← s.cursor.directive
  return { s with keyAllowed := false, cursor := c, queue := s.queue ++ [token] }

/-- The marker of a document's start or end. -/
def fetchMarker (s : Scanner) (kind : Kind) : Except Fault Scanner := do
  let s ← (s.unroll (-1)).forgetKey
  return { s with keyAllowed := false }.take 3 kind

def fetchFlowStart (s : Scanner) (kind : Kind) : Except Fault Scanner := do
  let s ← s.noteKey
  return { s with keys := none :: s.keys, keyAllowed := true }.take 1 kind

def fetchFlowEnd (s : Scanner) (kind : Kind) : Except Fault Scanner := do
  let s ← s.forgetKey
  let keys := if s.inFlow then s.keys.drop 1 else s.keys
  return { s with keys := keys, keyAllowed := false }.take 1 kind

/-- A comma in a flow collection. -/
def fetchFlowEntry (s : Scanner) : Except Fault Scanner := do
  let s ← s.forgetKey
  return { s with keyAllowed := true }.take 1 .flowEntry

def fetchBlockEntry (s : Scanner) : Except Fault Scanner := do
  if !s.inFlow ∧ !s.keyAllowed then
    throw (.alone "block sequence entries are not allowed in this context" s.mark)
  let s ← (s.roll s.mark.column none .blockSequenceStart s.mark).forgetKey
  return { s with keyAllowed := true }.take 1 .blockEntry

def fetchKey (s : Scanner) : Except Fault Scanner := do
  if !s.inFlow ∧ !s.keyAllowed then
    throw (.alone "mapping keys are not allowed in this context" s.mark)
  let s ← (s.roll s.mark.column none .blockMappingStart s.mark).forgetKey
  return { s with keyAllowed := !s.inFlow }.take 1 .key

def fetchValue (s : Scanner) : Except Fault Scanner :=
  match s.keys with
  | some key :: outer =>
    let s := s.insert key.number .key key.mark
    let s := s.roll key.mark.column (some key.number) .blockMappingStart key.mark
    .ok ({ s with keys := none :: outer, keyAllowed := false }.take 1 .value)
  | _ =>
    if !s.inFlow ∧ !s.keyAllowed then
      .error (.alone "mapping values are not allowed in this context" s.mark)
    else
      let s := s.roll s.mark.column none .blockMappingStart s.mark
      .ok ({ s with keyAllowed := !s.inFlow }.take 1 .value)

def fetchAnchor (s : Scanner) (context : String) (kind : String → Kind) :
    Except Fault Scanner := do
  let s ← s.noteKey
  let (name, c) ← s.cursor.anchor context
  return { s with keyAllowed := false, cursor := c }.enqueue (kind name) s.mark c.mark

def fetchTag (s : Scanner) : Except Fault Scanner := do
  let s ← s.noteKey
  let (handle, suffix, c) ← s.cursor.tag s.inFlow
  return { s with keyAllowed := false, cursor := c }.enqueue (.tag handle suffix) s.mark c.mark

/-- A scalar that was read at the place. -/
def put (s : Scanner) (style : Style) (x : Scalar) : Scanner :=
  { s with cursor := x.after }.enqueue (.scalar (String.ofList x.text) style) s.mark x.stop

def fetchBlock (s : Scanner) (literal : Bool) : Except Fault Scanner := do
  let s ← s.forgetKey
  let x ← s.cursor.block literal s.indent
  return { s with keyAllowed := true }.put (if literal then .literal else .folded) x

def fetchQuoted (s : Scanner) (single : Bool) : Except Fault Scanner := do
  let s ← s.noteKey
  let x ← s.cursor.quoted single
  return { s with keyAllowed := false }.put (if single then .singleQuoted else .doubleQuoted) x

def fetchPlain (s : Scanner) : Except Fault Scanner := do
  let s ← s.noteKey
  let x ← s.cursor.plain s.inFlow (s.indent + 1)
  return { s with keyAllowed := x.broken }.put .plain x

/-! ## The next token -/

/-- The place after blanks, comments and line breaks.  Each step takes a line. -/
def skipToToken (s : Scanner) : (steps : Nat) → Scanner
  | 0 => s
  | steps + 1 =>
    let tabs := s.inFlow || !s.keyAllowed
    let c := (s.cursor.skipWhile fun x => x == ' ' || (tabs && x == '\t')).skipComment
    match c.line? with
    | some (_, c) =>
      { s with cursor := c, keyAllowed := s.keyAllowed || !s.inFlow }.skipToToken steps
    | none => { s with cursor := c }

/-- Whether a plain scalar may begin with a text. -/
def startsPlain (flow : Bool) (cs : List Char) : Bool :=
  match cs with
  | [] => false
  | c :: rest =>
    !(atGap cs || "-?:,[]\x7b\x7d#&*!|>'\"%@`".toList.contains c) ||
      (c == '-' && !(rest.head?.any isSpaceOrTab)) ||
      (!flow && (c == '?' || c == ':') && !atGap rest)

/-- Reads the token at a place and what belongs to it. -/
def fetchHere (s : Scanner) : Except Fault Scanner :=
  let flow := s.inFlow
  match s.cursor.rest with
  | [] => s.fetchEnd
  | c :: rest =>
    if s.mark.column = 0 ∧ c = '%' then s.fetchDirective
    else if s.mark.column = 0 ∧ atMarker '-' s.cursor.rest then s.fetchMarker .documentStart
    else if s.mark.column = 0 ∧ atMarker '.' s.cursor.rest then s.fetchMarker .documentEnd
    else if c = '[' then s.fetchFlowStart .flowSequenceStart
    else if c = '\x7b' then s.fetchFlowStart .flowMappingStart
    else if c = ']' then s.fetchFlowEnd .flowSequenceEnd
    else if c = '\x7d' then s.fetchFlowEnd .flowMappingEnd
    else if c = ',' then s.fetchFlowEntry
    else if c = '-' ∧ atGap rest then s.fetchBlockEntry
    else if c = '?' ∧ (flow ∨ atGap rest) then s.fetchKey
    else if c = ':' ∧ (flow ∨ atGap rest) then s.fetchValue
    else if c = '*' then s.fetchAnchor "while scanning an alias" .alias
    else if c = '&' then s.fetchAnchor "while scanning an anchor" .anchor
    else if c = '!' then s.fetchTag
    else if c = '|' ∧ !flow then s.fetchBlock true
    else if c = '>' ∧ !flow then s.fetchBlock false
    else if c = '\'' then s.fetchQuoted true
    else if c = '"' then s.fetchQuoted false
    else if startsPlain flow s.cursor.rest then s.fetchPlain
    else
      .error (.within "while scanning for the next token" s.mark
        "found character that cannot start any token" s.mark)

/-- Reads the next token and what belongs to it. -/
def fetch (s : Scanner) : Except Fault Scanner :=
  if !s.started then
    .ok ({ s with started := true, keyAllowed := true, keys := [none] }.enqueue .streamStart
      s.mark s.mark)
  else do
    let s ← (s.skipToToken s.cursor.steps).dropStaleKeys
    (s.unroll s.mark.column).fetchHere

/-- Whether the first token of the queue may still get a key in front of it. -/
def mayBeKey (s : Scanner) : Bool :=
  s.keys.any fun key => key.any fun key => key.number == s.done.size

/-- All tokens, and the fault that ends them early.  Each step reads a token or takes one from
the queue. -/
def run (s : Scanner) : (steps : Nat) → List Token × Option Fault
  | 0 => (s.done.toList, none)
  | steps + 1 =>
    match s.queue with
    | [] =>
      if s.ended then (s.done.toList, none)
      else
        match s.fetch with
        | .ok s => run s steps
        | .error f => (s.done.toList, some f)
    | token :: queue =>
      match s.dropStaleKeys with
      | .error f => (s.done.toList, some f)
      | .ok s =>
        if s.mayBeKey then
          match s.fetch with
          | .ok s => run s steps
          | .error f => (s.done.toList, some f)
        else run { s with done := s.done.push token, queue := queue } steps

end Scanner

/-- The tokens of a text, and the fault that ends them early. -/
def tokens (cs : List Char) : List Token × Option Fault :=
  (Scanner.ofCursor (.ofText cs)).run (8 * cs.length + 16)

end CmdletForge.Yaml
