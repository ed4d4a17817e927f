import CmdletForge.Display.CustomDocument
import CmdletForge.Display.Manifest
import CmdletForge.Files.Tree
import CmdletForge.Text.Basic

/-!
# CmdletForge.Display.Collection

The display rules while they are used.

1. Each of the three lists of a manifest is looked at once: the first question that needs it
   takes a snapshot, and all later ones are answered from that.
2. The first load of custom documents that succeeds is kept: later loads answer with its
   documents.  A load that fails changes nothing.
3. A type is left out when it is listed for that, or once a loaded document has it.  It is
   eligible when it is not left out and is listed to be kept, or its namespace is not left out.
4. A namespace is left out when one of its segments is `Internal`, or when it is listed.
-/

namespace CmdletForge.Display

/-! ## Lists that are looked at once -/

/-- A list that can be edited, and what it was when it was first looked at. -/
structure Memo where
  live : List String
  snapshot : Option (List String)
  deriving DecidableEq, Repr

namespace Memo

/-- A list that nobody has looked at. -/
def ofList (xs : List String) : Memo := ⟨xs, none⟩

/-- What looking at the list gives. -/
def value (m : Memo) : List String := m.snapshot.getD m.live

/-- The list after it was looked at. -/
def look (m : Memo) : Memo := { m with snapshot := some m.value }

def push (m : Memo) (x : String) : Memo := { m with live := m.live ++ [x] }

def clear (m : Memo) : Memo := { m with live := [] }

end Memo

/-! ## Collections -/

/-- The documents of the load that succeeded, and the types that are left out from then on. -/
structure Loaded where
  documents : List CustomDocument
  excluded : List String
  deriving DecidableEq, Repr

/-- The display rules while they are used. -/
structure Collection where
  namespaces : Memo
  inclusions : Memo
  exclusions : Memo
  blocks : List Block
  loaded : Option Loaded
  deriving DecidableEq, Repr

/-- The part of a type's name in front of its last point. -/
def namespaceOf (typeName : String) : String :=
  match typeName.toList.reverse.dropWhile (· ≠ '.') with
  | _ :: before => String.ofList before.reverse
  | [] => ""

/-- Whether one of the segments of a namespace is `Internal`. -/
def isInternal (namespace_ : String) : Bool := (Text.split '.' namespace_).contains "Internal"

/-- Questions read a collection and may take snapshots. -/
abbrev Question := StateM Collection

namespace Collection

/-- The rules of a manifest that nobody has used. -/
def ofManifest (m : Manifest) : Collection :=
  ⟨.ofList m.namespacesToExclude, .ofList m.typesToInclude, .ofList m.typesToExclude, m.blocks,
    none⟩

/-! ## The sets -/

/-- The namespaces that are listed to be left out. -/
def namespaceSet : Question (List String) := do
  modify fun c => { c with namespaces := c.namespaces.look }
  return (← get).namespaces.value

/-- The types that are listed to be kept. -/
def inclusionSet : Question (List String) := do
  modify fun c => { c with inclusions := c.inclusions.look }
  return (← get).inclusions.value

/-- The types that are listed to be left out. -/
def exclusionSet : Question (List String) := do
  modify fun c => { c with exclusions := c.exclusions.look }
  return (← get).exclusions.value

/-- The types that are left out. -/
def effectiveExclusions : Question (List String) := do
  match (← get).loaded with
  | some l => return l.excluded
  | none => exclusionSet

/-! ## Types -/

/-- Whether a namespace is left out. -/
def isNamespaceExcluded (namespace_ : String) : Question Bool := do
  if isInternal namespace_ then return true
  else return (← namespaceSet).contains namespace_

def isTypeExcluded (typeName : String) : Question Bool := do
  return (← effectiveExclusions).contains typeName

/-- Whether a type gets a view. -/
def isTypeEligible (typeName : String) : Question Bool := do
  if ← isTypeExcluded typeName then return false
  else if (← inclusionSet).contains typeName then return true
  else return !(← isNamespaceExcluded (namespaceOf typeName))

/-- The columns of a type. -/
def columnsFor (c : Collection) (typeName : String) (catalog : Catalog) : List Column :=
  Display.columnsFor c.blocks typeName catalog

/-! ## Loading custom documents -/

/-- Why custom documents cannot be loaded. -/
inductive LoadError where
  | unreadable (cause : Files.Cause)
  | document (path : Path) (trouble : CustomDocument.Trouble)
  deriving DecidableEq, Repr

def LoadError.message : LoadError → String
  | .unreadable cause => "IO error: " ++ cause.message
  | .document path trouble =>
    "Invalid custom format document " ++ path ++ ": " ++ trouble.message

/-- The folder with the custom documents below a root, or a part of it. -/
def documentFolder (root : Path) (filter : Option String) : Path :=
  let folder := Path.join root "CustomFormats"
  match filter with
  | some part => if part.isEmpty then folder else Path.join folder part
  | none => folder

/-- Whether a path is that of a custom document. -/
def isDocumentPath (p : Path) : Bool :=
  (Path.extension? p).any fun e => Text.sameIgnoringCase e "ps1xml"

/-- The custom document in a file. -/
def readDocument (t : Files.Tree) (p : Path) : Except LoadError CustomDocument := do
  let text ← (t.read p).mapError .unreadable
  (CustomDocument.parse p text).mapError (.document p)

/-- The custom documents in and below a folder. -/
def readDocuments (t : Files.Tree) (folder : Path) : Except LoadError (List CustomDocument) :=
  ((t.filesBelow folder).filter isDocumentPath).mapM (readDocument t)

/-- Loads the custom documents below a root, unless that was done already. -/
def load (t : Files.Tree) (root : Path) (filter : Option String) :
    Question (Except LoadError (List CustomDocument)) := do
  match (← get).loaded with
  | some l => return .ok l.documents
  | none =>
    match readDocuments t (documentFolder root filter) with
    | .error e => return .error e
    | .ok documents =>
      let excluded ← exclusionSet
      modify fun c =>
        { c with loaded := some ⟨documents, excluded ++ documents.flatMap (·.typeNames)⟩ }
      return .ok documents

end Collection

end CmdletForge.Display
