import CmdletForge.Proofs.Cmdlet.Outlines
import CmdletForge.Proofs.Cmdlet.Validation
import CmdletForge.Proofs.Source.Quotations

/-!
# CmdletForge.Proofs.Cmdlet.Quotations

The texts of a model that a cmdlet has between quotes.

1. The verb and the noun, the type with the constants of a parameter and its aliases are quoted as
   they are.  What a confirmation shows, and the message and the parameter of a check, are escaped
   first.  A cmdlet quotes nothing else (`quotations_steps_of_outlines`).
2. A text that is escaped survives unless it has one of the characters U+0085, U+2028 and U+2029;
   one that is not has to be free of quotes, of backslashes and of all that ends a line as well
   (`quotationLaw`).  An alias with a quote in it is not read back (`not_reads_alias`).
-/

namespace CmdletForge.Cmdlet

open Source (Code Step Quotation Within readRegular units)
open Source.Step (codeOf textAt)

/-! ## The quotations of a property -/

/-- What the declaration of a parameter quotes. -/
def Declaration.quotations (d : Declaration) : List Quotation :=
  d.constants.toList.map (⟨·, false⟩) ++ d.aliases.map (⟨·, false⟩)

@[simp] theorem Declaration.quotations_ofSwitch (name summary : String) (aliases : List String) :
    (ofSwitch name summary aliases).quotations = aliases.map (⟨·, false⟩) := rfl

@[simp] theorem quotations_textDeclaration (p : Property) (c : Option Customization)
    (summary : String) :
    (textDeclaration p c summary).quotations = (parameterAliases p c).map (⟨·, false⟩) := rfl

/-- The code of a declaration quotes its aliases and its constants' type. -/
theorem Declaration.quotations_steps (d : Declaration) :
    (codeOf d.steps).quotations = d.quotations := by
  have hattributes : (codeOf d.parameterAttributes).quotations = [] := by
    unfold parameterAttributes
    split
    · split <;> rfl
    · rfl
  have hconstants : (codeOf d.constantsAttribute).quotations =
      d.constants.toList.map (⟨·, false⟩) := by
    unfold constantsAttribute
    split
    · next typeName htype => simp [htype]
    · next hnone => simp [hnone]
  have haliases : (codeOf d.aliasAttribute).quotations = d.aliases.map (⟨·, false⟩) := by
    unfold aliasAttribute
    split
    · next hempty => simp [List.isEmpty_iff.mp hempty]
    · simp [Code.quotations_separated, List.flatMap_map, ← List.map_eq_flatMap]
  simp [steps, comment, hattributes, hconstants, haliases, quotations]

def Binding.quotations : Binding → List Quotation
  | .parsed type _ parameter => [⟨invalidValueMessage type.members, true⟩, ⟨parameter, true⟩]
  | _ => []

/-- The code of a binding quotes the texts of its check. -/
theorem Binding.quotations_steps (b : Binding) (context : String) :
    (codeOf (b.steps context)).quotations = b.quotations := by
  cases b <;> simp [steps, parsing, choosing, quotations]

/-! ## The quotations of a cmdlet -/

/-- What the question whether to go on quotes. -/
def confirmationQuotations (s : Service) (o : Operation) : List Quotation :=
  if o.isMutating then
    o.confirmParameters.map (⟨·, true⟩) ++ [⟨commandOf s o ++ " (" ++ o.name ++ ")", true⟩]
  else []

namespace Outline

variable (x : Outline)

theorem source_cmdlet : x.cmdlet.source = x.source := rfl

/-- The command attribute quotes the verb and the noun. -/
theorem quotations_commandAttribute :
    x.commandAttribute.quotations =
      [⟨x.operation.verb, false⟩, ⟨nounOf x.service x.operation, false⟩] := by
  unfold commandAttribute
  split <;> rfl

/-- The switches quote nothing. -/
theorem quotations_switches : (codeOf x.switches).quotations = [] := by
  unfold switches
  split <;> split <;> simp [switchSteps]

/-- The confirmation quotes the names it lists and its action. -/
theorem quotations_confirmation :
    (codeOf x.confirmation).quotations = confirmationQuotations x.service x.operation := by
  unfold confirmation confirmationQuotations
  split
  · simp [confirmedValues, confirmQuestion, action, Code.quotations_separated, List.flatMap_map,
      ← List.map_eq_flatMap]
  · rfl

/-- The method that calls the service quotes nothing. -/
theorem quotations_executeMethod : (codeOf x.executeMethod).quotations = [] := by
  have hfilling : (codeOf (x.contextProperties.flatMap requestMember)).quotations = [] := by
    simp [Step.codeOf_flatMap, Code.quotations_flatMap, requestMember]
  cases hpaging : x.paging with
  | none => simp [executeMethod, hfilling, hpaging, singleCall, callSteps]
  | some y =>
    have hcondition : (pagingCondition y).quotations = [] := by
      unfold pagingCondition
      split
      · split <;> rfl
      · rfl
    have hcap : (codeOf (capSteps y)).quotations = [] := by
      unfold capSteps
      split <;> simp
    cases hlargest : cap? y <;>
      simp [executeMethod, hfilling, hpaging, pagedCall, callSteps, hlargest, hcap, hcondition]

/-- The context class quotes nothing. -/
theorem quotations_contextClass : (codeOf x.contextClass).quotations = [] := by
  rw [contextClass, Step.codeOf_plain_cons, Step.codeOf_block, Step.codeOf_map_line,
    Code.quotations_text_cons, Code.quotations_flatMap]
  simp

/-- **All that a cmdlet quotes**, in order. -/
theorem quotations_steps :
    (codeOf x.steps).quotations =
      [⟨x.operation.verb, false⟩, ⟨nounOf x.service x.operation, false⟩] ++
        (x.emissions.flatMap fun e => e.declarations.flatMap Declaration.quotations) ++
        confirmationQuotations x.service x.operation ++
        x.emissions.flatMap fun e => e.binding.quotations := by
  have hparameters : (codeOf x.parameters).quotations =
      x.emissions.flatMap fun e => e.declarations.flatMap Declaration.quotations := by
    simp [parameters, Step.codeOf_flatMap, Code.quotations_flatMap, Emission.parameterSteps,
      Declaration.quotations_steps]
  have hbindings : (codeOf x.bindings).quotations =
      x.emissions.flatMap fun e => e.binding.quotations := by
    simp [bindings, Step.codeOf_flatMap, Code.quotations_flatMap, Binding.quotations_steps]
  simp [steps, opening, classSteps, processMethod, quotations_commandAttribute, hparameters,
    quotations_switches, quotations_confirmation, hbindings, quotations_executeMethod,
    quotations_contextClass]

end Outline

/-! ## What is quoted of a model -/

section
variable (s : Service) (r : Registry) (o : Operation)

/-- The type with the constants of a parameter. -/
def constantsQuotations (p : Property) : List Quotation :=
  if emitterOf s r o p = .default ∧ (s.enum? p.typeName).isSome then [⟨p.typeName, false⟩] else []

/-- The aliases of a parameter; the switches of storage classes have none. -/
def aliasQuotations (p : Property) : List Quotation :=
  if emitterOf s r o p = .storageClass then []
  else (parameterAliases p (o.customization? p.name)).map (⟨·, false⟩)

/-- The message of a check, and the parameter that it is about. -/
def checkQuotations (p : Property) : List Quotation :=
  if emitterOf s r o p = .httpVerb ∨ emitterOf s r o p = .protocol then
    (s.enum? p.typeName).toList.flatMap fun t =>
      [⟨invalidValueMessage t.members, true⟩,
        ⟨parameterName p (o.customization? p.name), true⟩]
  else []

/-- All that the cmdlet of an operation quotes, in order. -/
def quotationsOf : List Quotation :=
  [⟨o.verb, false⟩, ⟨nounOf s o, false⟩] ++
    (o.properties.flatMap fun p => constantsQuotations s r o p ++ aliasQuotations s r o p) ++
    confirmationQuotations s o ++ o.properties.flatMap (checkQuotations s r o)

end

variable {s : Service} {r : Registry} {o : Operation}

/-- The declarations of a property quote its constants' type and its aliases. -/
theorem quotations_declarations (h : emission s r o p = .ok e) :
    e.declarations.flatMap Declaration.quotations =
      constantsQuotations s r o p ++ aliasQuotations s r o p := by
  obtain ⟨b, -, rfl⟩ := emission_eq_ok_iff.mp h
  cases hemitter : emitterOf s r o p with
  | default =>
    cases henum : s.enum? p.typeName <;>
      simp [Emitter.declarations, Declaration.quotations, constantsQuotations, aliasQuotations,
        hemitter, henum]
  | _ =>
    simp [Emitter.declarations, constantsQuotations, aliasQuotations, hemitter,
      -String.reduceAppend]

/-- A parsed value is checked with a message and the name of its parameter. -/
theorem quotations_of_parsedBinding {c : Option Customization}
    (h : parsedBinding s p c = .ok b) :
    b.quotations = (s.enum? p.typeName).toList.flatMap fun t =>
      [⟨invalidValueMessage t.members, true⟩, ⟨parameterName p c, true⟩] := by
  obtain ⟨t, ht, -, rfl⟩ := parsedBinding_eq_ok_iff.mp h
  rw [enum?_eq_some_iff.mpr ht]
  rfl

/-- The binding of a property quotes what its check throws. -/
theorem quotations_binding (h : emission s r o p = .ok e) :
    e.binding.quotations = checkQuotations s r o p := by
  obtain ⟨b, hb, rfl⟩ := emission_eq_ok_iff.mp h
  unfold checkQuotations
  cases hemitter : emitterOf s r o p with
  | httpVerb | protocol =>
    rw [hemitter] at hb
    simpa using quotations_of_parsedBinding hb
  | _ =>
    rw [hemitter] at hb
    cases hb
    rfl

/-- All quotations of a cmdlet, in the order in which they stand. -/
theorem quotations_steps_of_outlines (h : Outlines s r o x) :
    (codeOf x.steps).quotations = quotationsOf s r o := by
  have hdeclarations :
      (x.emissions.flatMap fun e => e.declarations.flatMap Declaration.quotations) =
        o.properties.flatMap fun p => constantsQuotations s r o p ++ aliasQuotations s r o p :=
    h.flatMap_emissions fun _ _ => quotations_declarations
  have hbindings : (x.emissions.flatMap fun e => e.binding.quotations) =
      o.properties.flatMap (checkQuotations s r o) :=
    h.flatMap_emissions fun _ _ => quotations_binding
  rw [x.quotations_steps, hdeclarations, hbindings, h.service_eq, h.operation_eq, quotationsOf]

/-! ## The law of quotation -/

/-- What is to be said of the texts that a cmdlet has between quotes. -/
structure QuotationLaw (s : Service) (r : Registry) (o : Operation) (c : SourceFile) : Prop where
  /-- The code of the cmdlet quotes the texts of the model in this order, and nothing else... -/
  complete : ∃ steps, c.source = textAt 0 steps ∧ (codeOf steps).quotations = quotationsOf s r o
  /-- ...and each of them stands in the source. -/
  within : ∀ q ∈ quotationsOf s r o, Within q.print c.source
  /-- Where one stands, a reader of literals finds its text and the end that was meant exactly when
  the quotation survives. -/
  reads : ∀ q ∈ quotationsOf s r o, ∀ before after,
    c.source.toList = before ++ (q.print.toList ++ after) →
    (readRegular (q.print.toList ++ after) = some (units q.value.toList, after) ↔ q.Survives)

/-- Every quotation is printed in the source. -/
theorem within_source_of_quotation (h : outlineOf s r o = .ok x) (hq : q ∈ quotationsOf s r o) :
    Within q.print x.source := by
  rw [← quotations_steps_of_outlines (outlines_of_outlineOf h)] at hq
  exact Step.within_quotation 0 hq

/-- **What a cmdlet quotes is read back** exactly when it has none of the characters that are not
escaped there. -/
theorem quotationLaw (hc : generateOne s r o = .ok c) : QuotationLaw s r o c := by
  obtain ⟨x, hx, rfl⟩ := generateOne_eq_ok_iff.mp hc
  have hquotations := quotations_steps_of_outlines (outlines_of_outlineOf hx)
  refine ⟨⟨x.steps, ?_, hquotations⟩, fun q hq => ?_, fun q _ _ after _ => q.reads_iff after⟩
  · rw [x.source_cmdlet, Outline.source]
  · rw [x.source_cmdlet]
    exact within_source_of_quotation hx hq

/-- An operation whose request has a key that is also called by another name. -/
def aliased (name : String) : Operation where
  name := "GetObject"
  verb := "Read"
  noun := "Object"
  requestType := "GetObjectRequest"
  properties := [⟨"Key", "System.String", false, none, none⟩]
  pagination := none
  confirmParameters := []
  customizations := [("Key", ⟨none, [name]⟩)]

/-- A name without quotes is read back. -/
theorem quotationLaw_aliased :
    ∃ c before after, generateOne (storeOf (aliased "Name")) .builtin (aliased "Name") = .ok c ∧
      c.source.toList = before ++ ("\"Name\"".toList ++ after) ∧
      readRegular ("\"Name\"".toList ++ after) = some (units "Name".toList, after) := by
  have hsuccess : isFailure (generateOne (storeOf (aliased "Name")) .builtin (aliased "Name")) =
      false := by decide +kernel
  obtain ⟨c, hc⟩ := exists_eq_ok hsuccess
  have hlaw := quotationLaw hc
  have hq : ⟨"Name", false⟩ ∈
      quotationsOf (storeOf (aliased "Name")) .builtin (aliased "Name") := by decide +kernel
  have hprint : "\"Name\"" = Quotation.print ⟨"Name", false⟩ := by decide +kernel
  obtain ⟨before, after, hplace⟩ := hlaw.within _ hq
  rw [List.append_assoc] at hplace
  have hread := (hlaw.reads _ hq before after hplace.symm).mpr (by decide +kernel)
  refine ⟨c, before, after, hc, ?_, ?_⟩
  · rw [hprint, hplace]
  · rw [hprint, hread]

/-- A name with quotes is not: its literal is over at the first of them. -/
theorem not_reads_alias :
    ∃ c, generateOne (storeOf (aliased "say \"hi\"")) .builtin (aliased "say \"hi\"") = .ok c ∧
      Within "\"say \"hi\"\"" c.source ∧
      ∀ after, readRegular ("\"say \"hi\"\"".toList ++ after) =
          some (units "say ".toList, "hi\"\"".toList ++ after) ∧
        units "say ".toList ≠ units "say \"hi\"".toList := by
  have hsuccess : isFailure (outlineOf (storeOf (aliased "say \"hi\"")) .builtin
      (aliased "say \"hi\"")) = false := by decide +kernel
  obtain ⟨x, hx⟩ := exists_eq_ok hsuccess
  have hq : ⟨"say \"hi\"", false⟩ ∈ quotationsOf (storeOf (aliased "say \"hi\"")) .builtin
      (aliased "say \"hi\"") := by decide +kernel
  have hprint : "\"say \"hi\"\"" = Quotation.print ⟨"say \"hi\"", false⟩ := by decide +kernel
  have hchars : "\"say \"hi\"\"".toList =
      (Quotation.print ⟨"say ", false⟩).toList ++ "hi\"\"".toList := by decide +kernel
  have hsay : Quotation.Survives ⟨"say ", false⟩ := by decide +kernel
  have hother : units "say ".toList ≠ units "say \"hi\"".toList := by decide +kernel
  have hwithin : Within "\"say \"hi\"\"" x.cmdlet.source := by
    rw [hprint, x.source_cmdlet]
    exact within_source_of_quotation hx hq
  refine ⟨x.cmdlet, generateOne_eq_ok_iff.mpr ⟨x, hx, rfl⟩, hwithin, fun after => ⟨?_, hother⟩⟩
  rw [hchars, List.append_assoc]
  exact (Quotation.reads_iff ⟨"say ", false⟩ _).mpr hsay

end CmdletForge.Cmdlet
