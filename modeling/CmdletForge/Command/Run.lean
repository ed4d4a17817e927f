import CmdletForge.Cmdlet.Generate
import CmdletForge.Command.Arguments
import CmdletForge.Display.Load
import CmdletForge.Format.Generate
import CmdletForge.Service.Document

/-!
# CmdletForge.Command.Run

What the commands do: what they say, and what they change in the files.

1. What is said goes to the output; notes and the failure go to the error stream.
2. A failure names what was tried, and behind that its causes from the outside inwards; they are
   numbered when there are several.
3. What was said and changed before a failure stays.
-/

namespace CmdletForge.Command

open Display (Collection Manifest Question)
open Files (Tree)

/-! ## Sessions -/

/-- What has been said, and the files. -/
structure Session where
  tree : Tree
  output : String
  errors : String

/-- What was tried in vain, and why. -/
structure Failure where
  attempt : String
  causes : List String
  deriving DecidableEq, Repr

/-- A text whose further lines are indented. -/
def hang (margin text : String) : String := ("\n" ++ margin).intercalate (Text.split '\n' text)

/-- The causes with their numbers. -/
def numbered (n : Nat) : List String → List String
  | [] => []
  | cause :: rest =>
    let digits := toString n
    let padding := String.ofList (List.replicate (5 - digits.length) ' ')
    (padding ++ digits ++ ": " ++ hang "       " cause) :: numbered (n + 1) rest

def Failure.text (f : Failure) : String :=
  let causes := match f.causes with
    | [cause] => ["    " ++ hang "    " cause]
    | causes => numbered 0 causes
  "Error: " ++ f.attempt ++ "\n\nCaused by:\n" ++ "\n".intercalate causes ++ "\n"

/-- Work in a session, which may fail. -/
abbrev Work := ExceptT Failure (StateM Session)

def say (line : String) : Work Unit :=
  modify fun s => { s with output := s.output ++ line ++ "\n" }

def sayAll (lines : List String) : Work Unit := lines.forM say

/-- Notes lines, if everything is to be said. -/
def note (verbose : Bool) (lines : List String) : Work Unit :=
  if verbose then
    modify fun s => { s with errors := s.errors ++ "".intercalate (lines.map (· ++ "\n")) }
  else pure ()

/-- Takes a result, or fails with the attempt and the causes of its error. -/
def taking {ε α : Type} (attempt : String) (causes : ε → List String) : Except ε α → Work α
  | .ok x => pure x
  | .error e => throw ⟨attempt, causes e⟩

/-- Takes a result that has changed the files, also where it is an error. -/
def changing {ε α : Type} (attempt : String) (causes : ε → List String)
    (result : Except ε α × Tree) : Work α := do
  modify fun s => { s with tree := result.2 }
  taking attempt causes result.1

/-- The path of the working folder. -/
def herePath (t : Tree) : Path := "/" ++ "/".intercalate t.here

def inner (line : String) : String := "  → " ++ line

/-! ## Causes -/

/-- A manifest error and what lies behind it. -/
def manifestCauses (e : Display.ManifestError) : List String := e.message :: e.trouble.causes

/-- A load error and what lies behind it. -/
def loadCauses (e : Collection.LoadError) : List String :=
  e.message :: match e with
    | .unreadable cause => [cause.message]
    | .document _ _ => []

/-- A service error and what lies behind it. -/
def serviceCauses (e : Service.Error) : List String := e.message :: e.inner?.toList

/-! ## Loading -/

/-- Loads the display rules of a folder and its custom documents. -/
def loadRules (verbose : Bool) (folder : Path) (filter : Option String) : Work Collection := do
  say ("→ Loading display configuration from: " ++ folder)
  let t := (← get).tree
  note verbose ["→ Loading configuration manifest " ++ Display.manifestPath (herePath t) folder]
  let manifest ← taking "Failed to load display configuration" manifestCauses
    (Manifest.load t (herePath t) folder)
  let (result, collection) := Collection.load t folder filter (.ofManifest manifest)
  let documents ← taking "Failed to load custom format documents" loadCauses result
  let count := toString documents.length
  note verbose ["→ Loaded " ++ count ++ " custom format documents from " ++
    Collection.documentFolder folder filter]
  say ("✓ Loaded " ++ count ++ " custom format documents for " ++ filter.getD "all services")
  return collection

def loadService (path : Path) : Work Service := do
  say ("→ Loading service model: " ++ path)
  let s ← taking ("Failed to load service model " ++ path) serviceCauses
    (Service.load (← get).tree path)
  say ("✓ Loaded " ++ s.id ++ " (" ++ toString s.operations.length ++ " operations, " ++
    toString s.types.length ++ " types)")
  return s

/-! ## Summaries -/

/-- How many different texts a list holds. -/
def distinct (xs : List String) : Nat := (Text.sortedSet xs).length

/-- The lines that summarise the rules. -/
def summary : Question (List String) := do
  let namespaces ← Collection.namespaceSet
  let inclusions ← Collection.inclusionSet
  let exclusions ← Collection.exclusionSet
  let effective ← Collection.effectiveExclusions
  return [ "",
    "Display Configuration:",
    "  Namespaces excluded: " ++ toString (distinct namespaces),
    "  Types included: " ++ toString (distinct inclusions),
    "  Types excluded: " ++ toString (distinct exclusions) ++ " (" ++
      toString (distinct effective) ++ " including custom formats)",
    "  Config blocks: " ++ toString (← get).blocks.length ]

def blockLine (b : Display.Block) : String :=
  "  • " ++ ", ".intercalate b.types ++ " (" ++ toString b.columns.length ++ " columns" ++
    (if b.reflects then ", reflects over type" else "") ++ ")"

def typeLine (s : Service) (t : AnswerType) : Question String := do
  if ← Collection.isTypeEligible t.name then
    let headers := ((← get).columnsFor t.name s.propertiesOf?).map (·.header)
    return "  • " ++ t.name ++ ": " ++
      if headers.isEmpty then "(no columns)" else ", ".intercalate headers
  else return "  - " ++ t.name ++ " (not eligible)"

/-! ## Commands -/

/-- Summarises the display rules, and how the types of a service are shown. -/
def showRules (verbose : Bool) (folder : Path) (filter : Option String) (model : Option Path) :
    Work Unit := do
  let collection ← loadRules verbose folder filter
  let (lines, collection) := summary collection
  sayAll lines
  if verbose then
    sayAll (["", "Config blocks:"] ++ collection.blocks.map blockLine)
  match model with
  | none => pure ()
  | some path =>
    let s ← loadService path
    sayAll (["", "Types:"] ++ (s.types.mapM (typeLine s) collection).1)

/-- Writes the format document of a service. -/
def generateFormats (verbose : Bool) (folder model : Path) (filter : Option String)
    (output : Option Path) : Work Unit := do
  let collection ← loadRules verbose folder filter
  let s ← loadService model
  let output := output.getD (Path.join defaultOutput ("AWS." ++ s.id ++ ".format.ps1xml"))
  if verbose then
    sayAll ["  Service: " ++ s.id, "  Output: " ++ output]
  say "→ Generating format document..."
  let causes (e : Format.Error) : List String := [e.message]
  let (decisions, collection) := Format.decisions s collection
  let decisions ← taking "Failed to resolve table views" causes decisions
  note verbose ((decisions.filterMap Format.Decision.note?).map inner)
  let attempt := "Failed to generate format document"
  let rendering ← taking attempt causes (Format.rendering s collection).1
  note verbose (rendering.notes.map inner)
  changing attempt causes (Format.writeDocument (← get).tree output rendering.text)
  sayAll [ "", "✓ Generation complete!",
    "  Generated views: " ++ toString (decisions.filterMap Format.Decision.view?).length,
    "  📄 " ++ output ]

/-- Whether a result is that the folder for the cmdlets could not be made. -/
def lacksFolder {α : Type} : Except Cmdlet.Error α → Bool
  | .error (.output (.folder _)) => true
  | _ => false

/-- Writes the cmdlets of a service. -/
def generateCmdlets (verbose : Bool) (model output : Path) : Work Unit := do
  let s ← loadService model
  if verbose then
    sayAll ["  Service: " ++ s.id, "  Noun prefix: " ++ s.nounPrefix, "  Output: " ++ output]
  say "→ Generating cmdlets..."
  let result := Cmdlet.generateTo s .builtin (← get).tree output
  note (verbose && !lacksFolder result.1) ((Cmdlet.notes s .builtin).map inner)
  let paths ← changing "Failed to generate cmdlets" (fun e => [e.message]) result
  sayAll (["", "✓ Generation complete!", "", "Generated files:"] ++ paths.map ("  📄 " ++ ·))

/-- Does what a command asks for. -/
def work (r : Request) : Work Unit := do
  if r.verbose then say "→ Verbose mode enabled"
  match r.command with
  | .showRules folder filter model => showRules r.verbose folder filter model
  | .generateFormats folder model filter output =>
    generateFormats r.verbose folder model filter output
  | .generateCmdlets model output => generateCmdlets r.verbose model output

/-- Runs a request: whether it succeeds, and the session behind it. -/
def run (t : Tree) (r : Request) : Bool × Session :=
  match (work r).run ⟨t, "", ""⟩ with
  | (.ok (), s) => (true, s)
  | (.error f, s) => (false, { s with errors := s.errors ++ f.text })

end CmdletForge.Command
