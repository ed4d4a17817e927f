import CmdletForge.Display.Collection
import CmdletForge.Files.Tree
import CmdletForge.Format.View
import CmdletForge.Service.Model

/-!
# CmdletForge.Format.Generate

The format document of a service.

1. Custom documents must be loaded first.  Then each type of the service that is eligible and has
   columns gets a view, in the order of the service.
2. The views of all custom documents follow those.
-/

namespace CmdletForge.Format

open Display (Collection CustomDocument Question)
open Files (Tree)

/-! ## Errors -/

/-- Why there is no format document. -/
inductive Error where
  | notLoaded
  | output (t : Files.OutputTrouble)
  deriving DecidableEq, Repr

def Error.reason : Error → String
  | .notLoaded => "Custom format documents must be loaded before generating formats"
  | .output t => t.message

def Error.message (e : Error) : String := "Generation error: " ++ e.reason

/-! ## Views -/

/-- What becomes of a type. -/
inductive Decision where
  | skipped (typeName : String)
  | columnless (typeName : String)
  | shown (view : TableView)
  deriving DecidableEq, Repr

namespace Decision

/-- The view of a type that is shown. -/
def view? : Decision → Option TableView
  | .shown view => some view
  | _ => none

/-- What is noted about a type that is not shown. -/
def note? : Decision → Option String
  | .skipped typeName => some ("Skipping " ++ typeName)
  | .columnless typeName => some ("No columns configured for " ++ typeName)
  | .shown _ => none

end Decision

/-- The columns of the view of a type. -/
def columnsOf (c : Collection) (s : Service) (typeName : String) : List ViewColumn :=
  (c.columnsFor typeName s.propertiesOf?).map ViewColumn.ofColumn

/-- What becomes of a type of a service. -/
def decisionFor (s : Service) (t : AnswerType) : Question Decision := do
  if ← Collection.isTypeEligible t.name then
    let columns := columnsOf (← get) s t.name
    if columns.isEmpty then return .columnless t.name
    else return .shown ⟨t.name, columns⟩
  else return .skipped t.name

/-- The custom documents, when they are loaded. -/
def customDocuments (c : Collection) : Except Error (List CustomDocument) :=
  match c.loaded with
  | some l => .ok l.documents
  | none => .error .notLoaded

/-- What becomes of the types of a service. -/
def decisions (s : Service) : Question (Except Error (List Decision)) := do
  match customDocuments (← get) with
  | .error e => return .error e
  | .ok _ => return .ok (← s.types.mapM (decisionFor s))

/-- The views of the types of a service. -/
def views (s : Service) : Question (Except Error (List TableView)) := do
  return (← decisions s).map fun ds => ds.filterMap Decision.view?

/-! ## Documents -/

/-- The views that are written by hand. -/
def customViews (documents : List CustomDocument) : List String := documents.flatMap (·.views)

/-- A document that has been made: its text, and what was noted. -/
structure Rendering where
  text : String
  notes : List String
  deriving DecidableEq, Repr

/-- Makes the document of a service. -/
def rendering (s : Service) : Question (Except Error Rendering) := do
  match ← decisions s with
  | .error e => return .error e
  | .ok ds =>
    match customDocuments (← get) with
    | .error e => return .error e
    | .ok documents =>
      let views := ds.filterMap Decision.view?
      let custom := customViews documents
      let count := "Rendering " ++ toString views.length ++ " generated and " ++
        toString custom.length ++ " custom views"
      return .ok ⟨document s.id views custom, ds.filterMap Decision.note? ++ [count]⟩

/-- The text of the document of a service. -/
def render (s : Service) : Question (Except Error String) := do
  return (← rendering s).map (·.text)

/-- Writes a text to a file, in a folder that need not be there. -/
def writeDocument (t : Tree) (path : Path) (text : String) : Except Error Unit × Tree :=
  let (made, t) := match Path.parent? path with
    | some parent => t.makeFolders parent
    | none => (.ok (), t)
  match made with
  | .error cause => (.error (.output (.folder cause)), t)
  | .ok () =>
    match t.write path text with
    | .error cause => (.error (.output (.file path cause)), t)
    | .ok t => (.ok (), t)

/-- Makes the document of a service and writes it to a file. -/
def generateTo (s : Service) (t : Tree) (path : Path) :
    Question (Except Error Unit × Tree) := do
  match ← render s with
  | .error e => return (.error e, t)
  | .ok text => return writeDocument t path text

end CmdletForge.Format
