import CmdletForge.Invocation.Member
import CmdletForge.Cmdlet.Registry
import CmdletForge.Service.Model
import CmdletForge.Source.Writer
import CmdletForge.Text.Basic

/-!
# CmdletForge.Cmdlet.Declaration

The parameters that request properties become.

1. A parameter has the name of its property, or the name that a customization gives to it; then
   the property's name is its first alias.
2. A parameter is declared in a region of its own: what it is for, its attributes, and the
   property that holds its value.
-/

namespace CmdletForge.Cmdlet

open Source (Code Piece Step)

/-! ## Names -/

def parameterName (p : Property) (c : Option Customization) : String :=
  (c.bind (·.newName)).getD p.name

/-- The texts of a list that are not among `seen`, each once, behind those. -/
def addNew (seen : List String) : List String → List String
  | [] => seen
  | x :: rest => addNew (if seen.contains x then seen else seen ++ [x]) rest

/-- The aliases of the parameter of a property. -/
def parameterAliases (p : Property) (c : Option Customization) : List String :=
  addNew (if parameterName p c = p.name then [] else [p.name]) ((c.map (·.aliases)).getD [])

/-! ## Declarations -/

/-- The declaration of a parameter. -/
structure Declaration where
  name : String
  typeName : String
  /-- What it is for; this may be of several lines. -/
  summary : String
  mandatory : Bool
  /-- Whether an empty text may be given; this counts for a mandatory parameter only. -/
  allowsEmpty : Bool
  aliases : List String
  /-- The type whose constants are the values that make sense. -/
  constants : Option String
  deriving DecidableEq, Repr

def switchType : String := "System.Management.Automation.SwitchParameter"

namespace Declaration

def ofSwitch (name summary : String) (aliases : List String) : Declaration :=
  ⟨name, switchType, summary, false, false, aliases, none⟩

/-- The comment that says what a parameter is for. -/
def comment (d : Declaration) : List Step :=
  [Step.plain "/// <summary>", .plain "/// <para>"] ++
    (Text.lines d.summary).map (fun line => Step.plain ("/// " ++ Text.trim line)) ++
    [Step.plain "/// </para>", .plain "/// </summary>"]

def parameterAttributes (d : Declaration) : List Step :=
  if d.mandatory then
    .plain
        "[System.Management.Automation.Parameter(ValueFromPipelineByPropertyName = true, Mandatory = true)]" ::
      if d.allowsEmpty then [.plain "[System.Management.Automation.AllowEmptyString]"] else []
  else [.plain "[System.Management.Automation.Parameter(ValueFromPipelineByPropertyName = true)]"]

def constantsAttribute (d : Declaration) : List Step :=
  match d.constants with
  | some typeName => [.line ["[AWSConstantClassSource(", .bare typeName, ")]"]]
  | none => []

def aliasAttribute (d : Declaration) : List Step :=
  if d.aliases.isEmpty then []
  else
    let names : Code := .separated "," (d.aliases.map fun a => [.bare a])
    [.line ([Piece.text "[Alias("] ++ names ++ [Piece.text ")]"])]

/-- What is written for a parameter. -/
def steps (d : Declaration) : List Step :=
  [.region ("Parameter " ++ d.name)
    (d.comment ++ d.parameterAttributes ++ d.constantsAttribute ++ d.aliasAttribute ++
      [Step.line [.property d.typeName d.name]])]

end Declaration

/-! ## The parameters of a property -/

/-- What a property is for, when nothing is said about that. -/
def defaultSummary (p : Property) : String :=
  p.description.getD ("The value for the " ++ p.name ++ " property.")

/-- What the switch of a storage class is for. -/
def storageClassSummary : StorageClass → String
  | .standard =>
    "Specifies the STANDARD storage class, which is the default storage class for S3 objects.\n" ++
      "Provides a 99.999999999% durability guarantee."
  | .reducedRedundancy =>
    "Specifies S3 should use REDUCED_REDUNDANCY storage class for the object.\n" ++
      "This provides a reduced (99.99%) durability guarantee at a lower cost as compared to the STANDARD storage class."

def textDeclaration (p : Property) (c : Option Customization) (summary : String) : Declaration :=
  ⟨parameterName p c, "System.String", summary, p.isMandatory, p.isMandatory && p.isText,
    parameterAliases p c, none⟩

/-- The parameters of a property, as an emitter makes them. -/
def Emitter.declarations (e : Emitter) (s : Service) (p : Property) (c : Option Customization) :
    List Declaration :=
  match e with
  | .default =>
    [⟨parameterName p c, p.typeName, defaultSummary p, p.isMandatory,
      p.isMandatory && p.isText, parameterAliases p c,
      (s.enum? p.typeName).map fun _ => p.typeName⟩]
  | .accelerate =>
    [.ofSwitch (parameterName p c)
      ("Enables S3 accelerate by sending requests to the accelerate endpoint instead of the regular region endpoint.\n" ++
        "To use this feature, the bucket name must be DNS compliant and must not contain periods (.).")
      (parameterAliases p c)]
  | .dualstack =>
    [.ofSwitch (parameterName p c)
      ("Configures the request to Amazon S3 to use the dualstack endpoint for a region.\n" ++
        "S3 supports dualstack endpoints which return both IPv6 and IPv4 values.")
      (parameterAliases p c)]
  | .httpVerb => [textDeclaration p c "The verb for the presigned url."]
  | .protocol => [textDeclaration p c "The protocol (http or https) for the generated url."]
  | .storageClass =>
    [StorageClass.standard, StorageClass.reducedRedundancy].map fun k =>
      .ofSwitch k.switch (storageClassSummary k) []

end CmdletForge.Cmdlet
