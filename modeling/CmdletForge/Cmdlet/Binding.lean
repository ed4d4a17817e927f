import CmdletForge.Cmdlet.Declaration
import CmdletForge.Files.Tree
import CmdletForge.Invocation.Member

/-!
# CmdletForge.Cmdlet.Binding

How the values of parameters reach the context of a request.

1. A value is assigned as it is, parsed as a member of an enumerated type, chosen by switches, or
   kept out of the context.
2. Parsing needs the members of the type: there is no binding when the service does not know the
   type, or knows no member of it.
3. On a writer that all properties of an operation share, the parameters are always written.  The
   binding is found first and then written; when there is none, the emitter fails with the writer
   as it stands.
-/

namespace CmdletForge.Cmdlet

open Source (Code Step Writer)

/-! ## Errors -/

/-- Why no cmdlet comes of an operation. -/
inductive Error where
  | unknownEnum (typeName property service : String)
  | emptyEnum (typeName : String)
  /-- The paging names a property that the request does not have. -/
  | noRequestProperty (operation property : String)
  | output (t : Files.OutputTrouble)
  deriving DecidableEq, Repr

def Error.reason : Error → String
  | .unknownEnum typeName property service =>
    "Enum type " ++ typeName ++ " for property " ++ property ++ " not found in " ++ service ++
      " service model"
  | .emptyEnum typeName => "Enum type " ++ typeName ++ " declares no members"
  | .noRequestProperty operation property =>
    "Paginated operation " ++ operation ++ " has no request property " ++ property
  | .output t => t.message

def Error.message (e : Error) : String := "Generation error: " ++ e.reason

/-! ## Bindings -/

/-- How the value of a property reaches the context. -/
inductive Binding where
  /-- It does not. -/
  | absent
  | assigned (property parameter : String)
  /-- As the member of an enumerated type. -/
  | parsed (type : EnumType) (property parameter : String)
  /-- As the storage class of a type that switches ask for. -/
  | chosen (typeName property : String)
  deriving DecidableEq, Repr

namespace Binding

/-- What is written to parse a text as a member. -/
def parsing (context : String) (type : EnumType) (property parameter : String) : List Step :=
  [Step.line ["if (!string.IsNullOrEmpty(", .member "this" parameter, "))"]] ++
    Step.block
      ([Step.plain "try"] ++
        Step.block
          [Step.line [.member context property, " = (", type.typeName, ")System.Enum.Parse(typeof(",
            type.typeName, "), ", .member "this" parameter, ", true);"]] ++
        [Step.plain "catch (System.ArgumentException)"] ++
        Step.block
          [.line ["throw new System.ArgumentException(",
            .literal (invalidValueMessage type.members), ", ", .literal parameter, ");"]])

/-- What is written to take a storage class when its switch is given. -/
def choosing (context typeName property keyword : String) (k : StorageClass) : List Step :=
  [Step.line [keyword, " (", .member "this" k.switch, ".IsPresent)"]] ++
    Step.block
      [.line [.member context property, " = ", typeName, ".", k.member, ";"]]

/-- What is written for a binding; `context` is the variable with the context. -/
def steps (context : String) : Binding → List Step
  | .absent => []
  | .assigned property parameter =>
    [.line [.member context property, " = ", .member "this" parameter, ";"]]
  | .parsed type property parameter => parsing context type property parameter
  | .chosen typeName property =>
    choosing context typeName property "if" .standard ++
      choosing context typeName property "else if" .reducedRedundancy

end Binding

def parsedBinding (s : Service) (p : Property) (c : Option Customization) :
    Except Error Binding :=
  match s.enum? p.typeName with
  | none => .error (.unknownEnum p.typeName p.name s.id)
  | some type =>
    if type.members.isEmpty then .error (.emptyEnum p.typeName)
    else .ok (.parsed type p.name (parameterName p c))

/-- The binding of a property, as an emitter makes it. -/
def Emitter.binding (e : Emitter) (s : Service) (p : Property) (c : Option Customization) :
    Except Error Binding :=
  match e with
  | .default => .ok (.assigned p.name (parameterName p c))
  | .accelerate | .dualstack => .ok .absent
  | .httpVerb | .protocol => parsedBinding s p c
  | .storageClass => .ok (.chosen p.typeName p.name)

/-! ## Writing -/

/-- Writes the parameters of a property. -/
def Emitter.writeParameters (e : Emitter) (s : Service) (p : Property)
    (c : Option Customization) (w : Writer) : Writer :=
  Step.writeAll w ((e.declarations s p c).flatMap Declaration.steps)

/-- Writes the binding of a property; `context` is the variable with the context. -/
def Emitter.writeBinding (e : Emitter) (context : String) (s : Service) (p : Property)
    (c : Option Customization) : EStateM Error Writer Unit := do
  match e.binding s p c with
  | .ok b => modify fun w => Step.writeAll w (b.steps context)
  | .error error => throw error

end CmdletForge.Cmdlet
