import CmdletForge.Display.Collection

/-!
# CmdletForge.Display.Operation

Everything that can be done with a collection, as a value.

1. An operation edits a list, adds a block, asks a question, or loads custom documents from the
   files as they are at that time.
2. `perform` answers an operation and gives the collection behind it, and `performAll` does so
   for several in turn.
-/

namespace CmdletForge.Display

/-- The lists of a collection. -/
inductive ListName where
  | namespacesToExclude
  | typesToInclude
  | typesToExclude
  deriving DecidableEq, Repr

/-- Something that is done with a collection. -/
inductive Operation where
  | namespaceSet
  | inclusionSet
  | exclusionSet
  | effectiveExclusions
  | push (list : ListName) (value : String)
  | clear (list : ListName)
  | pushBlock (block : Block)
  | namespaceExcluded (namespace_ : String)
  | typeExcluded (typeName : String)
  | typeEligible (typeName : String)
  | blocksFor (typeName : String)
  | skips (property : String)
  | columnsFor (typeName : String) (catalog : Catalog)
  | load (tree : Files.Tree) (root : Path) (filter : Option String)
  | documents

/-- What an operation answers. -/
inductive Answer where
  /-- The different texts, in their order. -/
  | set (texts : List String)
  | list (texts : List String)
  | count (n : Nat)
  | flag (b : Bool)
  | flags (bs : List Bool)
  | blocks (blocks : List Block)
  | columns (columns : List Column)
  | loaded (result : Except Collection.LoadError (List CustomDocument))
  | documents (documents : Option (List CustomDocument))

namespace Collection

def list (c : Collection) : ListName → Memo
  | .namespacesToExclude => c.namespaces
  | .typesToInclude => c.inclusions
  | .typesToExclude => c.exclusions

/-- A collection with one of its lists changed. -/
def edit (c : Collection) (change : Memo → Memo) : ListName → Collection
  | .namespacesToExclude => { c with namespaces := change c.namespaces }
  | .typesToInclude => { c with inclusions := change c.inclusions }
  | .typesToExclude => { c with exclusions := change c.exclusions }

/-- Changes a list and answers with it. -/
def editing (name : ListName) (change : Memo → Memo) : Question Answer := do
  modify fun c => c.edit change name
  return .list ((← get).list name).live

/-- Performs an operation. -/
def perform : Operation → Question Answer
  | .namespaceSet => do return .set (Text.sortedSet (← namespaceSet))
  | .inclusionSet => do return .set (Text.sortedSet (← inclusionSet))
  | .exclusionSet => do return .set (Text.sortedSet (← exclusionSet))
  | .effectiveExclusions => do return .set (Text.sortedSet (← effectiveExclusions))
  | .push name value => editing name fun m => m.push value
  | .clear name => editing name Memo.clear
  | .pushBlock block => do
    modify fun c => { c with blocks := c.blocks ++ [block] }
    return .count (← get).blocks.length
  | .namespaceExcluded namespace_ => do return .flag (← isNamespaceExcluded namespace_)
  | .typeExcluded typeName => do return .flag (← isTypeExcluded typeName)
  | .typeEligible typeName => do return .flag (← isTypeEligible typeName)
  | .blocksFor typeName => do return .blocks (Display.blocksFor (← get).blocks typeName)
  | .skips property => do return .flags ((← get).blocks.map fun b => b.skips property)
  | .columnsFor typeName catalog => do return .columns ((← get).columnsFor typeName catalog)
  | .load tree root filter => do return .loaded (← load tree root filter)
  | .documents => do return .documents ((← get).loaded.map (·.documents))

/-- Performs operations in turn: their answers, and the collection behind the last one. -/
def performAll (operations : List Operation) : Question (List Answer) := operations.mapM perform

end Collection

end CmdletForge.Display
