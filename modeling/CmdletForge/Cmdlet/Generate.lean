import CmdletForge.Cmdlet.Outline

/-!
# CmdletForge.Cmdlet.Generate

The cmdlets of a service.

1. Each operation gives one cmdlet.  It fails with the first request property that cannot be
   bound, and then with the first property of its paging that the request does not have.
2. The cmdlets of a service fail with the first operation that does.
3. Cmdlets are written to a folder, each to a file of its own.  The folder is made first, then all
   cmdlets are made, and only then the files are written in turn.  What was written before a
   failure stays.
-/

namespace CmdletForge.Cmdlet

open Files (Tree)

/-- A cmdlet, as the file that its source is written to. -/
structure SourceFile where
  className : String
  commandName : String
  source : String
  deriving DecidableEq, Repr

def SourceFile.fileName (c : SourceFile) : String := c.className ++ ".cs"

variable (s : Service) (r : Registry)

/-- The emitter that handles a property. -/
def emitterOf (o : Operation) (p : Property) : Emitter := r.resolve ⟨s.id, o.name, p.name⟩

/-- What a request property becomes. -/
def emission (o : Operation) (p : Property) : Except Error Emission :=
  let emitter := emitterOf s r o p
  let customization := o.customization? p.name
  (emitter.binding s p customization).map fun binding =>
    ⟨p, emitter, emitter.declarations s p customization, binding⟩

/-- The parameter of the request property that the paging calls by its name. -/
def pagingParameter (o : Operation) (name : String) : Except Error String :=
  match o.properties.find? (·.name = name) with
  | some p => .ok (parameterName p (o.customization? p.name))
  | none => .error (.noRequestProperty o.name name)

/-- How the answer of an operation is paged. -/
def pagingOf (o : Operation) (p : Pagination) : Except Error Paging := do
  let tokenParameter ← pagingParameter o p.token
  let limit ← match p.limit with
    | some name => (pagingParameter o name).map fun parameter => some (name, parameter)
    | none => .ok none
  return ⟨p.token, tokenParameter, p.nextTokenName, limit, p.items, p.pageSizeCap⟩

/-- The outline of the cmdlet of an operation. -/
def outlineOf (o : Operation) : Except Error Outline := do
  let emissions ← o.properties.mapM (emission s r o)
  let paging ← match o.pagination with
    | some p => (pagingOf o p).map some
    | none => .ok none
  return ⟨s, o, emissions, paging⟩

def Outline.cmdlet (o : Outline) : SourceFile :=
  ⟨classOf o.service o.operation, commandOf o.service o.operation, o.source⟩

/-- The cmdlet of an operation. -/
def generateOne (o : Operation) : Except Error SourceFile := (outlineOf s r o).map Outline.cmdlet

/-- The cmdlets of a service. -/
def generate : Except Error (List SourceFile) := s.operations.mapM (generateOne s r)

/-! ## Files -/

/-- Writes cmdlets to a folder in turn, and answers with the paths of their files. -/
def writeAll (t : Tree) (folder : Path) : List SourceFile → Except Error (List Path) × Tree
  | [] => (.ok [], t)
  | c :: rest =>
    let path := Path.join folder c.fileName
    match t.write path c.source with
    | .error cause => (.error (.output (.file c.fileName cause)), t)
    | .ok t =>
      let (result, t) := writeAll t folder rest
      (result.map (path :: ·), t)

/-- Makes the cmdlets of a service and writes them to a folder. -/
def generateTo (t : Tree) (folder : Path) : Except Error (List Path) × Tree :=
  match t.makeFolders folder with
  | (.error cause, t) => (.error (.output (.folder cause)), t)
  | (.ok (), t) =>
    match generate s r with
    | .error e => (.error e, t)
    | .ok cmdlets => writeAll t folder cmdlets

/-! ## Notes -/

/-- The items of a list up to the first that fails, and with it. -/
def untilFailure {α : Type} (fails : α → Bool) : List α → List α
  | [] => []
  | x :: rest => if fails x then [x] else x :: untilFailure fails rest

/-- Whether a result is a failure. -/
def isFailure {α : Type} : Except Error α → Bool
  | .ok _ => false
  | .error _ => true

/-- What is noted while the cmdlet of an operation is made. -/
def notesOf (o : Operation) : List String :=
  let special (p : Property) : Option String :=
    let emitter := emitterOf s r o p
    if emitter = .default then none
    else some (o.name ++ "." ++ p.name ++ " uses " ++ emitter.name ++ " emitter")
  ("Generating " ++ commandOf s o ++ " (" ++ o.name ++ ")") ::
    (untilFailure (fun p => isFailure (emission s r o p)) o.properties).filterMap special

/-- What is noted while the cmdlets of a service are made. -/
def notes : List String :=
  (untilFailure (fun o => isFailure (generateOne s r o)) s.operations).flatMap (notesOf s r)

end CmdletForge.Cmdlet
