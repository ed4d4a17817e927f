import CmdletForge.Proofs.Cmdlet.Members

/-!
# CmdletForge.Proofs.Cmdlet.Places

Where the parts of a cmdlet stand in its source.

1. The method that calls the service is even, whether it fetches the whole answer or page by page.
2. So the parameters, the switches and the context are written at the level of the class, and what
   asks for confirmation, binds values, fills the request and takes the token at that of a method.
-/

namespace CmdletForge.Cmdlet.Outline

open Source (Code Step Within)
open Source.Step (IsEven codeOf isEven_line isEven_nil levelAt textAt)

variable (x : Outline)

/-! ## The method that calls the service -/

theorem isEven_filling : IsEven x.filling :=
  Step.isEven_flatMap fun _ _ => IsEven.line_cons _ (isEven_line _).block

/-- A call closes what it opens if what follows it does. -/
theorem isEven_callSteps (into : String) (output : Code) (h : IsEven after) :
    IsEven (x.callSteps into output after) := fun level => by
  simp only [callSteps, Step.levelAt_append, Step.levelAt_line_cons, Step.levelAt_plain_cons,
    Step.levelAt_openBlock_cons, Step.levelAt_back_cons, Step.levelAt_closeBlock_cons,
    Step.levelAt_nil, h _, Nat.add_sub_cancel]

theorem isEven_capSteps (y : Paging) : IsEven (capSteps y) := by
  unfold capSteps
  split
  · exact IsEven.line_cons _ (isEven_line _).block
  · exact isEven_nil

/-- The call that pages closes what it opens. -/
theorem isEven_pagedCall (y : Paging) : IsEven (x.pagedCall y) := fun level => by
  have hcatch : IsEven
      (Step.block [.plain "output = new CmdletOutput \x7b ErrorResponse = e \x7d;"]) :=
    (isEven_line _).block
  cases hlargest : cap? y <;>
    simp only [pagedCall, hlargest, Step.levelAt_append, Step.levelAt_line_cons,
      Step.levelAt_plain_cons, Step.levelAt_openBlock_cons, Step.levelAt_back_cons,
      Step.levelAt_nil, hcatch _, isEven_capSteps y _, x.isEven_callSteps _ _ (isEven_line _) _,
      Nat.add_sub_cancel]

/-- The call for a single answer closes what it opens. -/
theorem isEven_singleCall : IsEven x.singleCall :=
  (x.isEven_callSteps _ _ isEven_nil).append (isEven_line _).block

/-- The method that calls the service closes what it opens. -/
theorem isEven_executeMethod : IsEven x.executeMethod := by
  refine IsEven.line_cons _ <| IsEven.block <|
    (((isEven_line _).append x.isEven_filling).append ((isEven_line _).line_cons _)).append ?_
  split
  · exact x.isEven_pagedCall _
  · exact x.isEven_singleCall

/-! ## Parts of the source -/

/-- What some of the steps write, at the level that those in front of them leave. -/
theorem within_source (before part after : List Step) (h : x.steps = before ++ part ++ after) :
    Within (textAt (levelAt 0 before) part) x.source := by
  rw [source, h]
  exact Step.within_textAt 0 before part after

/-- What stands in front of the parameters. -/
def classFront : List Step :=
  x.heading ++ [Step.plain ("public partial class " ++ classOf x.service x.operation ++
    " : AmazonClientCmdlet"), .openBlock]

def bindingsFront : List Step :=
  x.classFront ++ x.parameters ++ [Step.blank] ++ x.middle ++
    [Step.plain "var context = new CmdletContext();"]

/-- The class body is two blocks deep. -/
theorem levelAt_classFront : levelAt 0 x.classFront = 2 := by
  rw [classFront, Step.levelAt_append, x.levelAt_heading]
  rfl

/-- The bindings are three blocks deep. -/
theorem levelAt_bindingsFront : levelAt 0 x.bindingsFront = 3 := by
  simp only [bindingsFront, Step.levelAt_append, x.levelAt_classFront, x.isEven_parameters _,
    x.levelAt_middle, Step.blank, Step.levelAt_line_cons, Step.levelAt_plain_cons,
    Step.levelAt_nil]

/-- The steps of a cmdlet, cut at its bindings. -/
theorem steps_eq_of_front :
    x.steps = x.bindingsFront ++ x.bindings ++
      ([Step.blank, .plain "var output = Execute(context) as CmdletOutput;"] ++ x.back) := by
  rw [steps_eq, bindingsFront, classFront]
  simp only [List.append_assoc]

/-- The text of the parameters stands in the source, two levels deep. -/
theorem within_parameters : Within (textAt 2 x.parameters) x.source := by
  have h := x.within_source x.classFront x.parameters _ (by
    rw [steps_eq_of_front, bindingsFront]
    simp only [List.append_assoc]
    rfl)
  rwa [levelAt_classFront] at h

/-- The text of the bindings stands in the source, three levels deep. -/
theorem within_bindings : Within (textAt 3 x.bindings) x.source := by
  have h := x.within_source x.bindingsFront x.bindings _ x.steps_eq_of_front
  rwa [levelAt_bindingsFront] at h

/-- The text of the switches stands in the source, two levels deep. -/
theorem within_switches : Within (textAt 2 x.switches) x.source := by
  have h := x.within_source (x.classFront ++ x.parameters ++ [Step.blank]) x.switches _ (by
    rw [steps_eq_of_front, bindingsFront, middle]
    simp only [List.append_assoc]
    rfl)
  rwa [Step.levelAt_append, Step.levelAt_append, levelAt_classFront, x.isEven_parameters] at h

/-- The text of the confirmation stands in the source, three levels deep. -/
theorem within_confirmation : Within (textAt 3 x.confirmation) x.source := by
  have h := x.within_source
    (x.classFront ++ x.parameters ++ [Step.blank] ++ x.switches ++
      [Step.blank, .plain "protected override void ProcessRecord()", .openBlock,
        .plain "base.ProcessRecord();"])
    x.confirmation _ (by
      rw [steps_eq_of_front, bindingsFront, middle]
      simp only [List.append_assoc]
      rfl)
  simpa only [Step.levelAt_append, levelAt_classFront, x.isEven_parameters _, x.isEven_switches _,
    Step.blank, Step.levelAt_line_cons, Step.levelAt_plain_cons, Step.levelAt_openBlock_cons,
    Step.levelAt_nil] using h

/-- What stands in front of the method that calls the service. -/
def executeFront : List Step :=
  x.bindingsFront ++ x.bindings ++
    [Step.blank, .plain "var output = Execute(context) as CmdletOutput;"] ++
    [Step.plain "ProcessOutput(output);", .closeBlock, .blank]

theorem levelAt_executeFront : levelAt 0 x.executeFront = 2 := by
  simp only [executeFront, Step.levelAt_append, levelAt_bindingsFront, x.isEven_bindings _,
    Step.blank, Step.levelAt_line_cons, Step.levelAt_plain_cons, Step.levelAt_closeBlock_cons,
    Step.levelAt_nil, Nat.reduceSub]

/-- The steps of a cmdlet, cut at the method that calls the service. -/
theorem steps_eq_of_executeFront :
    x.steps = x.executeFront ++ x.executeMethod ++
      ([Step.blank] ++ x.contextClass ++ [Step.closeBlock, .closeBlock]) := by
  rw [steps_eq_of_front, executeFront, back]
  simp only [List.append_assoc]

/-- The text of the context class stands in the source, two levels deep. -/
theorem within_contextClass : Within (textAt 2 x.contextClass) x.source := by
  have h := x.within_source (x.executeFront ++ x.executeMethod ++ [Step.blank]) x.contextClass _ (by
    rw [steps_eq_of_executeFront]
    simp only [List.append_assoc]
    rfl)
  simpa only [Step.levelAt_append, levelAt_executeFront, x.isEven_executeMethod _, Step.blank,
    Step.levelAt_line_cons, Step.levelAt_nil] using h

def fillingFront : List Step :=
  x.executeFront ++ [Step.plain "public object Execute(CmdletContext cmdletContext)", .openBlock,
    .plain ("var request = new " ++ x.operation.requestType ++ "();")]

theorem levelAt_fillingFront : levelAt 0 x.fillingFront = 3 := by
  simp only [fillingFront, Step.levelAt_append, levelAt_executeFront, Step.levelAt_plain_cons,
    Step.levelAt_openBlock_cons, Step.levelAt_nil, Nat.reduceAdd]

/-- The text that fills the request stands in the source, three levels deep. -/
theorem within_filling : Within (textAt 3 x.filling) x.source := by
  have h := x.within_source x.fillingFront x.filling _ (by
    rw [steps_eq_of_executeFront, fillingFront, executeMethod, Step.block]
    simp only [List.append_assoc, List.cons_append, List.nil_append]
    rfl)
  rwa [levelAt_fillingFront] at h

/-- Only a paged call has these lines. -/
theorem within_pagingLines : Within (textAt 3 x.pagingLines) x.source := by
  cases hpaging : x.paging with
  | none =>
    rw [pagingLines, hpaging]
    exact List.nil_infix
  | some y =>
    have hlines : x.pagingLines = [.line (tokenCode y), .line (pagingCondition y)] := by
      rw [pagingLines, hpaging]
      rfl
    have h := x.within_source (x.fillingFront ++ x.filling ++ [Step.blank,
        .plain "var client = Client ?? CreateClient(_CurrentCredentials, _RegionEndpoint);"])
      x.pagingLines _ (by
        rw [steps_eq_of_executeFront, fillingFront, executeMethod, Step.block, hlines, hpaging]
        simp only [pagedCall, List.append_assoc, List.cons_append, List.nil_append]
        rfl)
    simpa only [Step.levelAt_append, levelAt_fillingFront, x.isEven_filling _, Step.blank,
      Step.levelAt_line_cons, Step.levelAt_plain_cons, Step.levelAt_nil] using h

/-! ## Parts of a property -/

section
variable {x}

/-- The parameters of each property stand among the parameters. -/
theorem within_parameters_of_mem (he : e ∈ x.emissions) :
    Within (textAt 2 e.parameterSteps) (textAt 2 x.parameters) := by
  rw [x.textAt_parameters, parametersText]
  refine Within.trans (Source.within_append "" _ "\n") (Source.within_join ?_)
  rw [String.empty_append]
  exact List.mem_map_of_mem he

/-- The parameters of each property stand in the source. -/
theorem within_parameterSteps (he : e ∈ x.emissions) :
    Within (textAt 2 e.parameterSteps) x.source :=
  (within_parameters_of_mem he).trans x.within_parameters

/-- The binding of each property stands in the source. -/
theorem within_bindingSteps (he : e ∈ x.emissions) :
    Within (textAt 3 (e.binding.steps contextVariable)) x.source := by
  refine Within.trans ?_ x.within_bindings
  rw [x.textAt_bindings, bindingsText]
  exact Source.within_join (List.mem_map_of_mem he)

/-- Every parameter of a property has a region... -/
theorem declares_of_mem_parameters (h : name ∈ (codeOf x.parameters).declared) :
    Declares (textAt 2 x.parameters) name := by
  rw [x.declared_parameters, List.mem_flatMap] at h
  obtain ⟨e, he, hname⟩ := h
  exact (Emission.declares hname).within (within_parameters_of_mem he)

/-- ...and so has every switch. -/
theorem declares_of_mem_switches (h : name ∈ (codeOf x.switches).declared) :
    Declares (textAt 2 x.switches) name := by
  rw [x.declared_switches, List.mem_append] at h
  rcases h with hpaged | hmutating
  · split at hpaged
    · next hpaging => exact List.mem_singleton.mp hpaged ▸ declares_onePageSwitch hpaging
    · contradiction
  · split at hmutating
    · next hasked => exact List.mem_singleton.mp hmutating ▸ declares_forceSwitch hasked
    · contradiction

/-- Every parameter of a property is declared in the source. -/
theorem declares_of_mem_parameterNames (h : name ∈ x.parameterNames) : Declares x.source name := by
  rcases List.mem_append.mp h with h | h
  · exact (declares_of_mem_parameters h).within x.within_parameters
  · exact (declares_of_mem_switches h).within x.within_switches

end

end CmdletForge.Cmdlet.Outline
