import CmdletForge.Cmdlet.Binding

/-!
# CmdletForge.Cmdlet.Outline

The source of a cmdlet, and what it is made of.

1. The outline of a cmdlet holds its service and operation, what each request property becomes,
   and how the answer is paged.
2. `Outline.steps` writes it: the parameters of all properties in order, then the method that
   binds their values, the method that calls the service, and the context between the two.
3. Only a cmdlet of a paged operation can be told to fetch one page, and only a cmdlet that
   changes something asks for confirmation.
-/

namespace CmdletForge.Cmdlet

open Source (Code Piece Step)

/-! ## Outlines -/

/-- What a request property becomes. -/
structure Emission where
  property : Property
  emitter : Emitter
  declarations : List Declaration
  binding : Binding
  deriving DecidableEq, Repr

namespace Emission

/-- Whether the property has a place in the context. -/
def inContext (e : Emission) : Bool := e.emitter != .accelerate && e.emitter != .dualstack

/-- What is written for the parameters. -/
def parameterSteps (e : Emission) : List Step := e.declarations.flatMap Declaration.steps

end Emission

/-- How an answer is paged, in the words of its request and its parameters. -/
structure Paging where
  /-- The member of the request with the token. -/
  token : String
  tokenParameter : String
  /-- The member of the answer with the next token. -/
  nextToken : String
  /-- The member of the request with the size of a page, and its parameter. -/
  limit : Option (String × String)
  /-- The member of the answer with the items. -/
  items : String
  pageSizeCap : Option Nat
  deriving DecidableEq, Repr

/-- What the source of a cmdlet is made of. -/
structure Outline where
  service : Service
  operation : Operation
  emissions : List Emission
  paging : Option Paging
  deriving DecidableEq, Repr

/-! ## Names -/

/-- The noun of an operation, with the prefix of its service. -/
def nounOf (s : Service) (o : Operation) : String := s.nounPrefix ++ o.noun

/-- The name of the command of an operation. -/
def commandOf (s : Service) (o : Operation) : String := o.verb ++ "-" ++ nounOf s o

/-- The name of the class of an operation. -/
def classOf (s : Service) (o : Operation) : String := o.verb ++ nounOf s o ++ "Cmdlet"

namespace Outline

/-- What a confirmation says about the action. -/
def action (o : Outline) : String :=
  commandOf o.service o.operation ++ " (" ++ o.operation.name ++ ")"

/-- The properties with a place in the context. -/
def contextProperties (o : Outline) : List Property :=
  (o.emissions.filter Emission.inContext).map (·.property)

/-- The variable with the context in the method that binds values. -/
def contextVariable : String := "context"

/-! ## Parameters -/

/-- What is written for the parameters of the properties; an empty line follows each. -/
def parameters (o : Outline) : List Step :=
  o.emissions.flatMap fun e => e.parameterSteps ++ [Step.blank]

/-- What is written for a switch that every cmdlet of a kind has. -/
def switchSteps (name : String) (comment : List String) : List Step :=
  [.region ("Parameter " ++ name)
    ([Step.plain "/// <summary>"] ++ comment.map (fun line => Step.plain ("/// " ++ line)) ++
      [Step.plain "/// </summary>",
        .plain "[System.Management.Automation.Parameter(ValueFromPipelineByPropertyName = true)]",
        .line [.property switchType name]])]

def onePageSwitch : String := "NoAutoIteration"

/-- The name of the switch to go on without confirmation. -/
def forceSwitch : String := "Force"

def switches (o : Outline) : List Step :=
  (if o.paging.isSome then
    switchSteps onePageSwitch
      ["By default the cmdlet will auto-iterate and retrieve all results to the pipeline.",
        "Use this switch to disable auto-pagination and return one page per call."]
  else []) ++
  (if o.operation.isMutating then
    switchSteps forceSwitch
      ["This parameter overrides confirmation prompts to force",
        "the cmdlet to continue its operation."]
  else [])

/-! ## Binding -/

/-- The call that shows the values to confirm. -/
def confirmedValues (o : Outline) : Code :=
  let names : Code :=
    .separated ", " (o.operation.confirmParameters.map fun name => [.literal name])
  [Piece.text "var resourceIdentifiersText = FormatParameterValuesForConfirmationMsg(new[] \x7b "] ++
    names ++ [Piece.text " \x7d, MyInvocation.BoundParameters);"]

/-- The question whether to go on. -/
def confirmQuestion (o : Outline) : Code :=
  ["if (!ConfirmShouldProceed(", .member "this" forceSwitch,
    ".IsPresent, resourceIdentifiersText, ", .literal o.action, "))"]

/-- What is written to ask for confirmation. -/
def confirmation (o : Outline) : List Step :=
  if o.operation.isMutating then
    [Step.blank, .line o.confirmedValues, .line o.confirmQuestion] ++ Step.block [.plain "return;"]
  else []

/-- What is written to bind the values of all parameters. -/
def bindings (o : Outline) : List Step :=
  o.emissions.flatMap fun e => e.binding.steps contextVariable

/-- The method that binds the values and has the work done. -/
def processMethod (o : Outline) : List Step :=
  .plain "protected override void ProcessRecord()" ::
    Step.block
      ([Step.plain "base.ProcessRecord();"] ++ o.confirmation ++
        [Step.blank, .plain "var context = new CmdletContext();"] ++ o.bindings ++
        [Step.blank, .plain "var output = Execute(context) as CmdletOutput;",
          .plain "ProcessOutput(output);"])

/-! ## Calling the service -/

/-- What is written to fill the request from the context. -/
def requestMember (p : Property) : List Step :=
  .line ["if (", .member "cmdletContext" p.name, " != null)"] ::
    Step.block [.line [.member "request" p.name, " = ", .member "cmdletContext" p.name, ";"]]

/-- What is written to call an operation, with the member of the answer that goes on. -/
def callSteps (o : Outline) (into : String) (output : Code) (after : List Step) : List Step :=
  [Step.plain "try", .openBlock,
    .plain ("var response = client." ++ o.operation.name ++ "(request);"),
    .plain (into ++ "new CmdletOutput"), .openBlock,
    .line (Piece.text "PipelineOutput = " :: output ++ [Piece.text ","]),
    .plain "ServiceResponse = response", .back, .plain "\x7d;"] ++ after ++
  [Step.closeBlock, .plain "catch (Exception e)"]

/-- The condition that the caller controls the paging. -/
def pagingCondition (p : Paging) : Code :=
  let bound (parameter : String) : Code :=
    [" || ParameterWasBound(nameof(", .member "this" parameter, "))"]
  let limit : Code := match p.limit with
    | some (_, parameter) => if parameter.isEmpty then [] else bound parameter
    | none => []
  [Piece.text "var _userControllingPaging = ", .member "this" onePageSwitch, .text ".IsPresent"] ++
    bound p.tokenParameter ++ limit ++ [Piece.text ";"]

/-- The largest page that the service accepts, unless it is none or zero. -/
def cap? (p : Paging) : Option Nat := p.pageSizeCap.filter (· ≠ 0)

/-- The member of the request with the size of a page, unless it has no name. -/
def limitMember? (p : Paging) : Option String :=
  (p.limit.map Prod.fst).filter fun name => !name.isEmpty

/-- What is written to keep the size of a page in its bounds. -/
def capSteps (p : Paging) : List Step :=
  match cap? p, limitMember? p with
  | some _, some limit =>
    .line ["if (", .member "request" limit, " == null || ", .member "request" limit,
        " > ServicePageSizeCap)"] ::
      Step.block [.line [.member "request" limit, " = ServicePageSizeCap;"]]
  | _, _ => []

/-- What is written to fetch page by page. -/
def pagedCall (o : Outline) (p : Paging) : List Step :=
  [Step.line ["var _nextToken = ", .member "cmdletContext" p.token, ";"],
    .line (pagingCondition p)] ++
  (match cap? p with
    | some n => [.plain ("const int ServicePageSizeCap = " ++ toString n ++ ";")]
    | none => []) ++
  [Step.plain "CmdletOutput output = null;", .plain "do", .openBlock,
    .line [.member "request" p.token, " = _nextToken;"]] ++
  capSteps p ++
  o.callSteps "output = " [.member "response" p.items]
    [Step.line ["_nextToken = ", .member "response" p.nextToken, ";"]] ++
  Step.block [Step.plain "output = new CmdletOutput \x7b ErrorResponse = e \x7d;"] ++
  [Step.plain "ProcessOutput(output);", .back,
    .plain "\x7d while (!_userControllingPaging && output.ErrorResponse == null && AutoIterationHelpers.HasValue(_nextToken));",
    .plain "return null;"]

/-- What is written to fetch the whole answer. -/
def singleCall (o : Outline) : List Step :=
  o.callSteps "return " [.text "response"] [] ++
    Step.block [.plain "return new CmdletOutput \x7b ErrorResponse = e \x7d;"]

/-- The method that calls the service. -/
def executeMethod (o : Outline) : List Step :=
  .plain "public object Execute(CmdletContext cmdletContext)" ::
    Step.block
      ([Step.plain ("var request = new " ++ o.operation.requestType ++ "();")] ++
        o.contextProperties.flatMap requestMember ++
        [Step.blank,
          .plain "var client = Client ?? CreateClient(_CurrentCredentials, _RegionEndpoint);"] ++
        match o.paging with
        | some p => o.pagedCall p
        | none => o.singleCall)

def contextClass (o : Outline) : List Step :=
  .plain "public partial class CmdletContext : ExecutorContext" ::
    Step.block (o.contextProperties.map fun p => .line [.property p.typeName p.name])

/-! ## The whole source -/

/-- The attribute that makes the class a command. -/
def commandAttribute (o : Outline) : Code :=
  [Piece.text "[Cmdlet(", .bare o.operation.verb, .text ", ",
    .bare (nounOf o.service o.operation)] ++
    (if o.operation.isMutating then
      [Piece.text ", SupportsShouldProcess = true, ConfirmImpact = ConfirmImpact.Medium"]
    else []) ++
    [Piece.text ")]"]

/-- What is written in front of the class. -/
def opening (o : Outline) : List Step :=
  [ .plain ("// Generated by pscmdlet-generator from the " ++ o.service.id ++ " service model (" ++
      o.service.sdkVersion ++ ")."),
    .plain "using System;",
    .plain "using System.Collections.Generic;",
    .plain "using System.Management.Automation;",
    .plain "using Amazon.PowerShell.Common;",
    .plain ("using " ++ o.service.scope ++ ";"),
    .plain ("using " ++ o.service.scope ++ ".Model;"),
    .blank,
    .plain ("namespace Amazon.PowerShell.Cmdlets." ++ o.service.id) ]

def classSteps (o : Outline) : List Step :=
  [ Step.plain "/// <summary>",
    .plain ("/// Calls the " ++ o.service.id ++ " " ++ o.operation.name ++ " API operation."),
    .plain "/// </summary>",
    .line o.commandAttribute,
    .plain
      ("public partial class " ++ classOf o.service o.operation ++ " : AmazonClientCmdlet") ] ++
  Step.block
    (o.parameters ++ [Step.blank] ++ o.switches ++ [Step.blank] ++ o.processMethod ++
      [Step.blank] ++ o.executeMethod ++ [Step.blank] ++ o.contextClass)

/-- What is written for a cmdlet. -/
def steps (o : Outline) : List Step := o.opening ++ Step.block o.classSteps

/-- The source of a cmdlet. -/
def source (o : Outline) : String := Step.textAt 0 o.steps

end Outline

end CmdletForge.Cmdlet
