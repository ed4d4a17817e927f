import CmdletForge.Proofs.Cmdlet.Composition
import CmdletForge.Proofs.Source.Codes

/-!
# CmdletForge.Proofs.Cmdlet.Declarations

The properties that a cmdlet declares: parameters, and the members of the context.

1. A parameter is declared in a region of its own.  Each property has the parameters that its
   emitter makes, and behind them stand the two switches that come with the kind of the operation.
2. `Declares` and `HasMember` are read off a text.  Every name that is declared in the steps of a
   part is declared in its text.
-/

namespace CmdletForge.Cmdlet

open Source (Code Step Within lineAt)
open Source.Step (IsEven codeOf isEven_line isEven_nil levelAt textAt)

/-! ## Names -/

/-- The code of a parameter is plain up to the property that holds its value. -/
theorem Declaration.codeOf_steps (d : Declaration) :
    ∃ front : Code, front.isPlain = true ∧
      codeOf d.steps = front ++ [.property d.typeName d.name] := by
  have hcomment : (codeOf d.comment).isPlain = true := by simp [comment, Code.isPlain]
  have hattributes : (codeOf d.parameterAttributes).isPlain = true := by
    unfold parameterAttributes
    split
    · split <;> rfl
    · rfl
  have hconstants : (codeOf d.constantsAttribute).isPlain = true := by
    unfold constantsAttribute
    split <;> rfl
  have halias : (codeOf d.aliasAttribute).isPlain = true := by
    unfold aliasAttribute
    split
    · rfl
    · have hnames : (Code.separated "," (d.aliases.map fun a => [.bare a])).isPlain = true :=
        Code.isPlain_separated "," (by simp [Code.isPlain])
      simpa [Code.isPlain] using hnames
  refine ⟨codeOf d.comment ++ codeOf d.parameterAttributes ++ codeOf d.constantsAttribute ++
    codeOf d.aliasAttribute, ?_, by simp [steps]⟩
  rw [Code.isPlain] at hcomment hattributes hconstants halias
  rw [Code.isPlain, List.all_append, List.all_append, List.all_append, hcomment, hattributes,
    hconstants, halias]
  rfl

/-- The code of a declaration declares its name and nothing else. -/
theorem Declaration.declared_steps (d : Declaration) : (codeOf d.steps).declared = [d.name] := by
  obtain ⟨front, hfront, hcode⟩ := d.codeOf_steps
  rw [hcode, Code.declared_append, Code.declared_of_isPlain hfront]
  rfl

/-- A property has the parameter of its name, unless it has switches. -/
theorem Emitter.names_declarations {e : Emitter} (h : e ≠ .storageClass) (s : Service)
    (p : Property) (c : Option Customization) :
    (e.declarations s p c).map (·.name) = [parameterName p c] := by
  cases e <;> first | rfl | contradiction

/-- The parameters of a property. -/
theorem Emission.declared_parameterSteps (e : Emission) :
    (codeOf e.parameterSteps).declared = e.declarations.map (·.name) := by
  rw [parameterSteps, Step.codeOf_flatMap, Code.declared_flatMap, List.map_eq_flatMap]
  simp only [Declaration.declared_steps]

/-- The code of a binding declares no parameter. -/
theorem Binding.declared_steps (b : Binding) (context : String) :
    (codeOf (b.steps context)).declared = [] := by
  cases b <;> simp [steps, parsing, choosing]

namespace Outline

variable (x : Outline)

/-- The parameters of the properties. -/
theorem declared_parameters :
    (codeOf x.parameters).declared = x.emissions.flatMap fun e => e.declarations.map (·.name) := by
  rw [parameters, Step.codeOf_flatMap, Code.declared_flatMap]
  simp [Emission.declared_parameterSteps]

/-- The switches are those of the kind of the operation. -/
theorem declared_switches :
    (codeOf x.switches).declared =
      (if x.paging.isSome then [onePageSwitch] else []) ++
        (if x.operation.isMutating then [forceSwitch] else []) := by
  unfold switches
  split <;> split <;> simp [switchSteps]

/-- The names of all parameters, in the order in which they are declared. -/
def parameterNames : List String := (codeOf x.parameters).declared ++ (codeOf x.switches).declared

/-- The members of the context. -/
theorem declared_contextClass :
    (codeOf x.contextClass).declared = x.contextProperties.map (·.name) := by
  rw [contextClass, Step.codeOf_plain_cons, Step.codeOf_block, Step.codeOf_map_line,
    Code.declared_text_cons, Code.declared_flatMap, List.map_eq_flatMap]
  rfl

theorem isPlain_commandAttribute : x.commandAttribute.isPlain = true := by
  unfold commandAttribute
  split <;> rfl

theorem isPlain_confirmedValues : x.confirmedValues.isPlain = true := by
  have hnames : (Code.separated ", "
      (x.operation.confirmParameters.map fun name => [.literal name])).isPlain = true :=
    Code.isPlain_separated ", " (by simp [Code.isPlain])
  simpa [confirmedValues, Code.isPlain] using hnames

/-- The method that calls the service declares no parameter. -/
theorem declared_executeMethod : (codeOf x.executeMethod).declared = [] := by
  have hfilling : (codeOf (x.contextProperties.flatMap requestMember)).declared = [] := by
    simp [Step.codeOf_flatMap, Code.declared_flatMap, requestMember]
  cases hpaging : x.paging with
  | none => simp [executeMethod, hfilling, hpaging, singleCall, callSteps]
  | some y =>
    have hcondition : (pagingCondition y).declared = [] := by
      unfold pagingCondition
      split
      · split <;> rfl
      · rfl
    have hcap : (codeOf (capSteps y)).declared = [] := by
      unfold capSteps
      split <;> simp
    cases hlargest : cap? y <;>
      simp [executeMethod, hfilling, hpaging, pagedCall, callSteps, hlargest, hcap, hcondition]

/-- Besides parameters a cmdlet declares only the members of its context. -/
theorem declared_steps :
    (codeOf x.steps).declared = x.parameterNames ++ (codeOf x.contextClass).declared := by
  have hattribute := Code.declared_of_isPlain x.isPlain_commandAttribute
  have hconfirmation : (codeOf x.confirmation).declared = [] := by
    unfold confirmation
    split <;> simp [confirmQuestion, Code.declared_of_isPlain x.isPlain_confirmedValues]
  have hbindings : (codeOf x.bindings).declared = [] := by
    simp [bindings, Step.codeOf_flatMap, Code.declared_flatMap, Binding.declared_steps]
  simp [steps, opening, classSteps, processMethod, parameterNames, hattribute, hconfirmation,
    hbindings, declared_executeMethod]

end Outline

/-! ## Texts -/

/-- A text with a parameter region that declares a name. -/
def Declares (text name : String) : Prop :=
  ∃ typeName inner, Within
    (lineAt 2 ("#region Parameter " ++ name) ++ (inner ++
      lineAt 2 ("public " ++ typeName ++ " " ++ name ++ " \x7b get; set; \x7d") ++
      lineAt 2 "#endregion"))
    text

/-- A text with a line that gives a name to a member of the context. -/
def HasMember (text name : String) : Prop :=
  ∃ typeName, Within
    (lineAt 3 ("public " ++ typeName ++ " " ++ name ++ " \x7b get; set; \x7d")) text

/-- What a part declares, the whole declares. -/
theorem Declares.within (h : Declares part name) (hpart : Within part whole) :
    Declares whole name := by
  obtain ⟨typeName, inner, hregion⟩ := h
  exact ⟨typeName, inner, hregion.trans hpart⟩

/-- What is left of the line of a member when nothing is said of its type. -/
theorem HasMember.within (h : HasMember text name) :
    Within (" " ++ name ++ (" \x7b get; set; \x7d" ++ "\n")) text := by
  obtain ⟨typeName, hline⟩ := h
  refine Within.trans ?_ hline
  have hparts : Source.indentation 3 ++
      ("public " ++ typeName ++ " " ++ name ++ " \x7b get; set; \x7d") ++ "\n" =
        Source.indentation 3 ++ "public " ++ typeName ++
          (" " ++ name ++ (" \x7b get; set; \x7d" ++ "\n")) ++ "" := by
    simp only [String.append_assoc, String.append_empty]
  rw [lineAt, if_neg (by simp), hparts]
  exact Source.within_append _ _ _

/-- A region whose last line is that of a property declares it. -/
theorem declares_region (hbody : IsEven body) (typeName name : String) :
    Declares
      (textAt 2 [.region ("Parameter " ++ name) (body ++ [Step.line [.property typeName name]])])
      name := by
  refine ⟨typeName, textAt 2 body, ?_⟩
  have hprint : Code.print [.property typeName name] =
      "public " ++ typeName ++ " " ++ name ++ " \x7b get; set; \x7d" := String.append_empty
  have hname : "#region " ++ ("Parameter " ++ name) = "#region Parameter " ++ name :=
    String.append_assoc.symm
  have hall : IsEven (body ++ [Step.line [.property typeName name]]) :=
    hbody.append (isEven_line _)
  rw [Step.textAt_region_cons, Step.textAt_append, Step.textAt_line_cons, Step.textAt_nil,
    Step.textAt_nil, hall, hbody, hprint, hname, String.append_empty, String.append_empty]
  exact List.infix_rfl

/-- A property declares its parameters. -/
theorem Emission.declares {e : Emission} (h : name ∈ e.declarations.map (·.name)) :
    Declares (textAt 2 e.parameterSteps) name := by
  obtain ⟨d, hd, rfl⟩ := List.mem_map.mp h
  have hsteps : textAt 2 e.parameterSteps =
      String.join (e.declarations.map fun d => textAt 2 d.steps) :=
    Step.textAt_flatMap (fun d _ => d.isEven_steps) 2
  have hbody : IsEven
      (d.comment ++ d.parameterAttributes ++ d.constantsAttribute ++ d.aliasAttribute) :=
    ((d.isEven_comment.append d.isEven_parameterAttributes).append
      d.isEven_constantsAttribute).append d.isEven_aliasAttribute
  refine (declares_region hbody d.typeName d.name).within ?_
  rw [hsteps]
  exact Source.within_join (List.mem_map_of_mem hd)

namespace Outline

variable {x : Outline}

/-- A switch of all cmdlets of a kind is declared like a parameter. -/
theorem declares_switchSteps (name : String) (comment : List String) :
    Declares (textAt 2 (switchSteps name comment)) name := by
  have hlast (front : List Step) (a b c : Step) : front ++ [a, b, c] = front ++ [a, b] ++ [c] :=
    List.append_assoc front [a, b] [c] |>.symm
  rw [switchSteps, hlast]
  refine declares_region ?_ _ _
  exact ((isEven_line _).append (Step.isEven_map_line _ _)).append ((isEven_line _).line_cons _)

/-- A cmdlet that pages declares the switch for a single page. -/
theorem declares_onePageSwitch (h : x.paging.isSome = true) :
    Declares (textAt 2 x.switches) onePageSwitch := by
  rw [switches, if_pos h]
  exact (declares_switchSteps _ _).within (Step.within_textAt 2 [] _ _)

/-- A cmdlet that changes something declares the switch that skips the question. -/
theorem declares_forceSwitch (h : x.operation.isMutating = true) :
    Declares (textAt 2 x.switches) forceSwitch := by
  have hbehind {front : List Step} (hfront : IsEven front) (comment : List String) :
      Declares (textAt 2 (front ++ switchSteps forceSwitch comment)) forceSwitch := by
    refine (declares_switchSteps forceSwitch comment).within ?_
    have hwithin := Step.within_textAt 2 front (switchSteps forceSwitch comment) []
    rwa [hfront, List.append_nil] at hwithin
  rw [switches, if_pos h]
  refine hbehind ?_ _
  split
  · exact isEven_switchSteps _ _
  · exact isEven_nil

/-- The context has its members. -/
theorem hasMember (h : name ∈ x.contextProperties.map (·.name)) :
    HasMember (textAt 2 x.contextClass) name := by
  obtain ⟨p, hp, rfl⟩ := List.mem_map.mp h
  obtain ⟨before, after, hproperties⟩ := List.append_of_mem hp
  have hprint : Code.print [.property p.typeName p.name] =
      "public " ++ p.typeName ++ " " ++ p.name ++ " \x7b get; set; \x7d" := String.append_empty
  let declaration (p : Property) : Step := .line [.property p.typeName p.name]
  let front : List Step :=
    [Step.plain "public partial class CmdletContext : ExecutorContext", .openBlock] ++
      before.map declaration
  have hsteps : x.contextClass =
      front ++ [declaration p] ++ (after.map declaration ++ [Step.closeBlock]) := by
    rw [contextClass, hproperties]
    simp [Step.block, front, declaration]
  have hlevel : levelAt 2 front = 3 := by
    rw [Step.levelAt_append]
    exact Step.isEven_map_line _ _ _
  have hwithin :=
    Step.within_textAt 2 front [declaration p] (after.map declaration ++ [Step.closeBlock])
  rw [← hsteps, hlevel, Step.textAt_line_cons, Step.textAt_nil, String.append_empty, hprint]
    at hwithin
  exact ⟨p.typeName, hwithin⟩

end Outline

end CmdletForge.Cmdlet
