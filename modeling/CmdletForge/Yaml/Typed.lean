import CmdletForge.Shape.Basic
import CmdletForge.Yaml.Word

/-!
# CmdletForge.Yaml.Typed

YAML texts read as values of a shape.

1. The document is walked in the order of the text, and the first mismatch, or the place where
   it ends early, ends the reading.
2. A text is any scalar as it is written.  A list, a table or a record may be left empty.
3. Something optional is absent when it is an empty plain scalar or a plain null.
4. A record may have unknown fields, which are skipped, but no known field twice.  In a table
   the last value of a name counts.
5. Aliases are followed, at most a hundred times as often as the document has events.
6. A mismatch is shown with the path of the value that it was found in.
-/

namespace CmdletForge.Yaml

/-- Why a text cannot be read as a value of a shape. -/
inductive Error where
  | stopped (s : Stop)
  | endOfStream
  | tooManyAliases
  | severalDocuments
  | mismatch (m : Mismatch) (path : String) (mark : Mark)

/-- What all readers know of the document. -/
structure Source where
  stop : Option Stop
  size : Nat
  /-- The anchored nodes with their numbers, the last one first. -/
  anchored : List (Nat × Node)

/-- Readers count the aliases that they have followed. -/
abbrev Reader := StateT Nat (Except Error)

/-! ## Paths -/

def fieldPath (path name : String) : String := if path.isEmpty then name else path ++ "." ++ name

def itemPath (path : String) (index : Nat) : String :=
  (if path.isEmpty then "." else path) ++ "[" ++ toString index ++ "]"

/-! ## Aliases and unexpected nodes -/

namespace Source

/-- The error where the document ends early. -/
def ending (src : Source) : Error :=
  match src.stop with
  | some s => .stopped s
  | none => .endOfStream

/-- The node that stands at a place, behind an alias if there is one. -/
def resolve (src : Source) : Node → Reader Node
  | .alias _ number => do
    let jumps := (← get) + 1
    set jumps
    if src.size * 100 < jumps then throw .tooManyAliases
    match src.anchored.lookup number with
    | some n => return n
    | none => throw src.ending
  | n => return n

/-- The error of a node in the place of something else. -/
def unexpected (src : Source) (path : String) (expected : String) : Node → Error
  | .scalar mark _ tag text style => .mismatch (scalarMismatch tag text style expected) path mark
  | .sequence mark _ _ => .mismatch (.invalidType .sequence expected) path mark
  | .mapping mark _ _ => .mismatch (.invalidType .map expected) path mark
  | .alias _ _ | .nothing => .endOfStream
  | .cut => src.ending

end Source

mutual

/-- Whether a node is cut off somewhere. -/
def Node.isCut : Node → Bool
  | .cut => true
  | .sequence _ _ parts | .mapping _ _ parts => anyCut parts
  | .scalar _ _ _ _ _ | .alias _ _ | .nothing => false

/-- Whether one of several nodes is cut off somewhere. -/
def anyCut : List Node → Bool
  | [] => false
  | n :: rest => n.isCut || anyCut rest

end

/-- Whether a node is a plain scalar without content, or nothing at all. -/
def Node.isBlank : Node → Bool
  | .scalar _ _ _ text style => text.isEmpty && style == .plain
  | .nothing => true
  | _ => false

def Node.mark : Node → Mark
  | .scalar mark _ _ _ _ | .sequence mark _ _ | .mapping mark _ _ | .alias mark _ => mark
  | .nothing | .cut => .start

/-- Whether a scalar may be a flag or a count: a plain one, or a literal one with the tag. -/
def isLiteral (name : String) (tag : Option String) (style : Style) : Bool :=
  style == .plain || (style == .literal && tag == some (coreTag name))

/-! ## Parts of all shapes -/

namespace Source

/-- Reads a scalar as it is written. -/
def readText (src : Source) (path expected : String) (n : Node) : Reader String := do
  match ← src.resolve n with
  | .scalar _ _ _ text _ => return text
  | n => throw (src.unexpected path expected n)

def readFlag (src : Source) (path : String) (n : Node) : Reader Bool := do
  let n ← src.resolve n
  match n with
  | .scalar _ _ tag text style =>
    match flag? text, isLiteral "bool" tag style with
    | some b, true => return b
    | _, _ => throw (src.unexpected path "a boolean" n)
  | n => throw (src.unexpected path "a boolean" n)

def readCount (src : Source) (path : String) (n : Node) : Reader Nat := do
  let n ← src.resolve n
  match n with
  | .scalar _ _ tag text style =>
    match natural? text.toList, isLiteral "int" tag style with
    | some k, true =>
      if k < Nat.pow 2 64 then return k else throw (src.unexpected path "usize" n)
    | _, _ => throw (src.unexpected path "usize" n)
  | n => throw (src.unexpected path "usize" n)

/-- Whether something optional is present; `owner` is where what it belongs to begins, and
`ownerPath` its path. -/
def isPresent (src : Source) (ownerPath : String) (owner : Mark) : Node → Reader Bool
  | .scalar _ _ tag text style => do
    if style ≠ .plain then return true
    match tag with
    | none => return !(text.isEmpty || isNull text)
    | some tag =>
      if tag ≠ coreTag "null" then return true
      else if isNull text then return false
      else throw (.mismatch (.invalidValue (.text text) "null") ownerPath owner)
  | .sequence _ _ _ | .mapping _ _ _ | .alias _ _ => return true
  | .nothing => return false
  | .cut => throw src.ending

def itemsOf (src : Source) (path expected : String) (n : Node) : Reader (List Node) :=
  match n with
  | .sequence _ _ items => return items
  | n => if n.isBlank then return [] else throw (src.unexpected path expected n)

/-- The keys and values of a mapping. -/
def entriesOf (src : Source) (path expected : String) (n : Node) :
    Reader (List (Node × Node)) :=
  match n with
  | .mapping _ _ parts => return entries parts
  | n => if n.isBlank then return [] else throw (src.unexpected path expected n)

def valuePath (path : String) : Node → String
  | .scalar _ _ _ text _ => fieldPath path text
  | _ => fieldPath path "?"

/-- Passes over a node whose content does not matter. -/
def skip (src : Source) (n : Node) : Reader Unit :=
  if n.isCut then throw src.ending else return ()

/-! ## Shapes -/

mutual

/-- Reads a node as a value of a shape; `owner` is where what it belongs to begins, and
`ownerPath` its path. -/
def readShape (src : Source) : (s : Shape) → (path ownerPath : String) → (owner : Mark) → Node →
    Reader s.Value
  | .text, path, _, _, n => src.readText path "a string" n
  | .flag, path, _, _, n => src.readFlag path n
  | .count, path, _, _, n => src.readCount path n
  | .optional s, path, ownerPath, owner, n => do
    let n ← src.resolve n
    if ← src.isPresent ownerPath owner n then
      return some (← src.readShape s path ownerPath owner n)
    else return none
  | .list s, path, _, _, n => do
    let n ← src.resolve n
    let items ← src.itemsOf path "a sequence" n
    items.zipIdx.mapM fun (item, i) => src.readShape s (itemPath path i) path n.mark item
  | .table s, path, _, _, n => do
    let n ← src.resolve n
    let entries ← src.entriesOf path "a map" n
    List.foldlM
      (fun (table : List (String × s.Value)) (entry : Node × Node) => do
        let name ← src.readText path "a string" entry.1
        let v ← src.readShape s (valuePath path entry.1) path n.mark entry.2
        return Table.put name v table)
      [] entries
  | .record name fields, path, _, _, n => do
    let n ← src.resolve n
    let entries ← src.entriesOf path ("struct " ++ name) n
    let read ← List.foldlM
      (fun (read : fields.Partial) (entry : Node × Node) => do
        let name ← src.readText path "field identifier" entry.1
        src.readField fields name path (valuePath path entry.1) n.mark entry.2 read)
      fields.unread entries
    match fields.finish read with
    | .ok values => return values
    | .error missing => throw (.mismatch (.missingField missing) path n.mark)

/-- Reads an entry of a mapping into the field of its name. -/
def readField (src : Source) : (fields : Fields) → (name ownerPath path : String) →
    (owner : Mark) → Node → fields.Partial → Reader fields.Partial
  | .nil, _, _, _, _, n, _ => src.skip n
  | .field known _ s rest, name, ownerPath, path, owner, n, (value, others) => do
    if name = known then
      match value with
      | some _ => throw (.mismatch (.duplicateField known) ownerPath owner)
      | none => return (some (← src.readShape s path ownerPath owner n), others)
    else return (value, ← src.readField rest name ownerPath path owner n others)

end

end Source

/-- Reads a whole text as a value of a shape. -/
def read (s : Shape) (text : String) : Except Error s.Value := do
  let doc := Document.ofText text
  let src : Source := ⟨doc.stop, doc.size, doc.root.anchored.reverse⟩
  let value ← (src.readShape s "" "" .start doc.root).run' 0
  match doc.stop with
  | some stop => .error (.stopped stop)
  | none => if doc.followed then .error .severalDocuments else return value

/-! ## Messages -/

/-- What an error says, without its place. -/
def Error.cause : Error → String
  | .stopped (.fault f) => f.message
  | .stopped (.unknownAnchor _) => "unknown anchor"
  | .endOfStream => "EOF while parsing a value"
  | .tooManyAliases => "repetition limit exceeded"
  | .severalDocuments =>
    "deserializing from YAML containing more than one document is not supported"
  | .mismatch m path _ => (if path.isEmpty then "" else path ++ ": ") ++ m.message

/-- What an error says, with its place. -/
def Error.message (e : Error) : String :=
  let place (mark : Mark) : String := if mark.isLater then mark.message else ""
  match e with
  | .stopped (.unknownAnchor mark) => e.cause ++ place mark
  | .mismatch _ _ mark => e.cause ++ place mark
  | e => e.cause

end CmdletForge.Yaml
