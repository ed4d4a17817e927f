import CmdletForge.Proofs.Cmdlet.Emissions
import CmdletForge.Proofs.Cmdlet.Outlines

/-!
# CmdletForge.Proofs.Cmdlet.Composition

A cmdlet is put together from what its properties become.

1. `parameterText` and `bindingText` are what is written of a property for itself.  They are the
   texts of its emission, and there is a binding exactly when there is an emission.
2. The steps of a cmdlet are a front, the parameters, a middle, the bindings and a back
   (`steps_eq`).  The front leaves the level of the parameters and the middle that of the bindings,
   and both of these are even.  So in the source stands what each property has for itself.
-/

namespace CmdletForge.Cmdlet

open Source (Step Writer lineAt)
open Source.Step (IsEven isEven_line isEven_nil levelAt textAt)

/-! ## Properties for themselves -/

/-- The text of the parameters of a property, as an emitter writes it for itself at a level. -/
def Emitter.parameterText (e : Emitter) (s : Service) (p : Property) (c : Option Customization)
    (level : Nat) : String := (e.writeParameters s p c (.start level)).text

/-- The text of the binding of a property, as an emitter writes it for itself at a level. -/
def Emitter.bindingText (e : Emitter) (s : Service) (p : Property) (c : Option Customization)
    (level : Nat) : Except Error String :=
  match (e.writeBinding Outline.contextVariable s p c).run (.start level) with
  | .ok _ w => .ok w.text
  | .error error _ => .error error

section
variable (s : Service) (r : Registry) (o : Operation)

/-- The text of the parameters of a property of an operation, by the emitter that the registry
resolves for it. -/
def parameterText (level : Nat) (p : Property) : String :=
  (r.resolve ⟨s.id, o.name, p.name⟩).parameterText s p (o.customization? p.name) level

/-- The text of the binding of a property of an operation, by the same emitter. -/
def bindingText (level : Nat) (p : Property) : Except Error String :=
  (r.resolve ⟨s.id, o.name, p.name⟩).bindingText s p (o.customization? p.name) level

variable {s r o} {p : Property}

/-- When the property can be bound, its parameter text is that of its emission. -/
theorem parameterText_of_emission (h : emission s r o p = .ok e) (level : Nat) :
    parameterText s r o level p = textAt level e.parameterSteps := by
  obtain ⟨b, -, rfl⟩ := emission_eq_ok_iff.mp h
  rw [parameterText, Emitter.parameterText, Emitter.writeParameters_eq]
  exact String.empty_append

/-- When the property can be bound, its binding text is that of its emission. -/
theorem bindingText_of_emission (h : emission s r o p = .ok e) (level : Nat) :
    bindingText s r o level p = .ok (textAt level (e.binding.steps Outline.contextVariable)) := by
  obtain ⟨b, hb, rfl⟩ := emission_eq_ok_iff.mp h
  rw [emitterOf] at hb
  rw [bindingText, Emitter.bindingText, Emitter.writeBinding_of_ok _ _ hb]
  exact congrArg Except.ok String.empty_append

/-- A property has no binding text exactly when it has no emission, and for the same reason. -/
theorem bindingText_eq_error_iff :
    bindingText s r o level p = .error error ↔ emission s r o p = .error error := by
  cases h : emission s r o p with
  | ok e => simp [bindingText_of_emission h]
  | error error' =>
    have hb := emission_eq_error_iff.mp h
    rw [emitterOf] at hb
    rw [bindingText, Emitter.bindingText, Emitter.writeBinding_of_error _ _ hb]
    simp

/-- There is a binding exactly when there is an emission. -/
theorem exists_emission_of_bindingText (h : ∃ text, bindingText s r o level p = .ok text) :
    ∃ e, emission s r o p = .ok e := by
  obtain ⟨text, htext⟩ := h
  cases he : emission s r o p with
  | ok e => exact ⟨e, rfl⟩
  | error error =>
    rw [bindingText_eq_error_iff.mpr he] at htext
    contradiction

end

/-! ## The parts of a cmdlet -/

namespace Outline

variable (x : Outline)

/-- What stands in front of the line of the class. -/
def heading : List Step :=
  x.opening ++
    [ Step.openBlock, .plain "/// <summary>",
      .plain ("/// Calls the " ++ x.service.id ++ " " ++ x.operation.name ++ " API operation."),
      .plain "/// </summary>", .line x.commandAttribute ]

/-- What stands between the parameters and the line that makes the context. -/
def middle : List Step :=
  x.switches ++ [Step.blank, .plain "protected override void ProcessRecord()", .openBlock,
    .plain "base.ProcessRecord();"] ++ x.confirmation ++ [Step.blank]

/-- What stands behind the bindings and the line that has the work done. -/
def back : List Step :=
  [Step.plain "ProcessOutput(output);", .closeBlock, .blank] ++ x.executeMethod ++ [Step.blank] ++
    x.contextClass ++ [Step.closeBlock, .closeBlock]

/-- **The parts of a cmdlet**, in the order in which they are written. -/
theorem steps_eq :
    x.steps = x.heading ++
      [Step.plain ("public partial class " ++ classOf x.service x.operation ++
        " : AmazonClientCmdlet"), .openBlock] ++ x.parameters ++ [Step.blank] ++ x.middle ++
      [Step.plain "var context = new CmdletContext();"] ++ x.bindings ++
      [Step.blank, .plain "var output = Execute(context) as CmdletOutput;"] ++ x.back := by
  simp only [steps, classSteps, processMethod, heading, middle, back, Step.block,
    List.append_assoc, List.cons_append, List.nil_append]

/-! ## Levels -/

theorem levelAt_opening (level : Nat) : levelAt level x.opening = level := by
  simp only [opening, Step.plain, Step.blank, Step.levelAt_line_cons, Step.levelAt_nil]

/-- The heading leaves one block open, the namespace. -/
theorem levelAt_heading : levelAt 0 x.heading = 1 := by
  simp only [heading, Step.levelAt_append, levelAt_opening, Step.plain, Step.levelAt_openBlock_cons,
    Step.levelAt_line_cons, Step.levelAt_nil]

theorem isEven_switchSteps (name : String) (comment : List String) :
    IsEven (switchSteps name comment) :=
  IsEven.region _ <| ((isEven_line _).append (Step.isEven_map_line _ _)).append <|
    ((isEven_line _).line_cons _).line_cons _

/-- The switches of a cmdlet close what they open. -/
theorem isEven_switches : IsEven x.switches := by
  unfold switches
  refine IsEven.append ?_ ?_
  · split
    · exact isEven_switchSteps _ _
    · exact isEven_nil
  · split
    · exact isEven_switchSteps _ _
    · exact isEven_nil

/-- The confirmation closes what it opens. -/
theorem isEven_confirmation : IsEven x.confirmation := by
  unfold confirmation
  split
  · exact (((isEven_line _).line_cons _).line_cons _).append (isEven_line _).block
  · exact isEven_nil

/-- Between the parameters and the bindings one more block is opened. -/
theorem levelAt_middle : levelAt 2 x.middle = 3 := by
  simp only [middle, Step.levelAt_append, x.isEven_switches _, x.isEven_confirmation _, Step.plain,
    Step.blank, Step.levelAt_openBlock_cons, Step.levelAt_line_cons, Step.levelAt_nil]

theorem isEven_parameterSteps (e : Emission) : IsEven (e.parameterSteps ++ [Step.blank]) :=
  (Step.isEven_flatMap fun d _ => d.isEven_steps).append (isEven_line _)

/-- The parameters close what they open. -/
theorem isEven_parameters : IsEven x.parameters :=
  Step.isEven_flatMap fun e _ => isEven_parameterSteps e

/-- The bindings close what they open. -/
theorem isEven_bindings : IsEven x.bindings :=
  Step.isEven_flatMap fun e _ => e.binding.isEven_steps contextVariable

/-! ## The source -/

/-- The texts of the parameters of all properties, each with an empty line behind it. -/
def parametersText : String :=
  String.join (x.emissions.map fun e => textAt 2 e.parameterSteps ++ "\n")

def bindingsText : String :=
  String.join (x.emissions.map fun e => textAt 3 (e.binding.steps contextVariable))

theorem textAt_blank (level : Nat) : textAt level [.blank] = "\n" := by
  rw [Step.blank, Step.textAt_line_cons, Step.textAt_nil, String.append_empty]
  rfl

/-- The steps of the parameters print the text that the law speaks of. -/
theorem textAt_parameters : textAt 2 x.parameters = x.parametersText := by
  rw [parameters, Step.textAt_flatMap fun e _ => isEven_parameterSteps e, parametersText]
  refine congrArg String.join (List.map_congr_left fun e _ => ?_)
  rw [Step.textAt_append, textAt_blank]

/-- The steps of the bindings print the text that the law speaks of. -/
theorem textAt_bindings : textAt 3 x.bindings = x.bindingsText :=
  Step.textAt_flatMap (fun e _ => e.binding.isEven_steps contextVariable) 3

/-- **The source of a cmdlet**, with the texts of its properties in their places. -/
theorem source_eq :
    x.source =
      textAt 0 x.heading ++
        (lineAt 1 ("public partial class " ++ classOf x.service x.operation ++
          " : AmazonClientCmdlet") ++ lineAt 1 "\x7b") ++ x.parametersText ++
        ("\n" ++ textAt 2 x.middle ++ lineAt 3 "var context = new CmdletContext();") ++
        x.bindingsText ++
        ("\n" ++ lineAt 3 "var output = Execute(context) as CmdletOutput;" ++
          textAt 3 x.back) := by
  have hblank (level : Nat) : lineAt level (Source.Code.print []) = "\n" := rfl
  have hline (text : String) : Source.Code.print [.text text] = text := String.append_empty
  rw [source, steps_eq]
  simp only [Step.textAt_append, Step.levelAt_append, levelAt_heading, Step.plain, Step.blank,
    Step.levelAt_line_cons, Step.levelAt_openBlock_cons, Step.levelAt_nil, x.isEven_parameters _,
    levelAt_middle, x.isEven_bindings _, textAt_parameters, textAt_bindings,
    Step.textAt_line_cons, Step.textAt_openBlock_cons, Step.textAt_nil, Nat.reduceAdd, hblank,
    hline, String.append_empty, String.append_assoc]

end Outline

section
variable {s : Service} {r : Registry} {o : Operation}

/-- The parameters are those of the operation's properties, in order, each with an empty line after
it. -/
theorem parametersText_of_outlines (h : Outlines s r o x) :
    x.parametersText = String.join (o.properties.map fun p => parameterText s r o 2 p ++ "\n") := by
  rw [Outline.parametersText]
  refine congrArg String.join ?_
  rw [← List.forall₂_eq_eq_eq, List.forall₂_map_left_iff, List.forall₂_map_right_iff]
  exact h.emissions.flip.imp fun e p he => by rw [parameterText_of_emission he]

/-- The bindings are those of the operation's properties, in order. -/
theorem bindingTexts_of_outlines (h : Outlines s r o x) :
    List.Forall₂ (fun p text => bindingText s r o 3 p = .ok text) o.properties
      (x.emissions.map fun e => textAt 3 (e.binding.steps Outline.contextVariable)) := by
  rw [List.forall₂_map_right_iff]
  exact h.emissions.imp fun p e he => bindingText_of_emission he 3

end

/-! ## The law of composition -/

/-- What is to be said of an emitter at work on a property. -/
structure EmissionLaw (e : Emitter) (s : Service) (p : Property) (c : Option Customization) :
    Prop where
  /-- Parameters are put behind what is written, at the level that is kept.  What is put there
  depends on the writer only through its level. -/
  parameters : ∃ text : Nat → String, ∀ w,
    e.writeParameters s p c w = ⟨w.text ++ text w.level, w.level⟩
  /-- So is a binding, or the emitter fails with every writer and leaves it as it is. -/
  binding : ∀ context,
    (∃ text : Nat → String, ∀ w,
      (e.writeBinding context s p c).run w = .ok () ⟨w.text ++ text w.level, w.level⟩) ∨
    ∃ error, ∀ w, (e.writeBinding context s p c).run w = .error error w

/-- Every emitter is append-only, comes back to its level and fails only in its binding. -/
theorem emissionLaw (e : Emitter) (s : Service) (p : Property) (c : Option Customization) :
    EmissionLaw e s p c where
  parameters :=
    ⟨fun level => textAt level ((e.declarations s p c).flatMap Declaration.steps),
      e.writeParameters_eq s p c⟩
  binding context := by
    cases h : e.binding s p c with
    | ok b =>
      exact .inl ⟨fun level => textAt level (b.steps context),
        fun w => Emitter.writeBinding_of_ok context w h⟩
    | error error => exact .inr ⟨error, fun w => Emitter.writeBinding_of_error context w h⟩

section
variable (s : Service) (r : Registry) (o : Operation)

/-- Every property can be bound. -/
def AllBound : Prop := ∀ p ∈ o.properties, ∃ text, bindingText s r o 3 p = .ok text

/-- What is to be said of the cmdlet of an operation and what its properties have for
themselves: parameters at the level of the class, bindings at that of a method. -/
structure CompositionLaw : Prop where
  /-- The first property that cannot be bound fails the cmdlet. -/
  unbound : ∀ before p after error, o.properties = before ++ p :: after →
    (∀ q ∈ before, ∃ text, bindingText s r o 3 q = .ok text) →
    bindingText s r o 3 p = .error error → generateOne s r o = .error error
  /-- Then a token that is no property does... -/
  no_token : AllBound s r o → ∀ g, o.pagination = some g → ¬ HasProperty o g.token →
    generateOne s r o = .error (.noRequestProperty o.name g.token)
  /-- ...and then a limit that is none. -/
  no_limit : AllBound s r o → ∀ g name, o.pagination = some g → HasProperty o g.token →
    g.limit = some name → ¬ HasProperty o name →
    generateOne s r o = .error (.noRequestProperty o.name name)
  /-- Otherwise there is a cmdlet.  Behind the opening of its class stand the parameters of all
  properties in order, an empty line behind each, and behind the line that makes the context stand
  their bindings in order; both are written by the emitter that the registry resolves for the
  service, the operation and the property. -/
  source : AllBound s r o →
    (∀ g, o.pagination = some g →
      HasProperty o g.token ∧ ∀ name, g.limit = some name → HasProperty o name) →
    ∃ c front middle back bindings, generateOne s r o = .ok c ∧
      List.Forall₂ (fun p text => (r.resolve ⟨s.id, o.name, p.name⟩).bindingText s p
        (o.customization? p.name) 3 = .ok text) o.properties bindings ∧
      c.source =
        front ++
          (lineAt 1 ("public partial class " ++ classOf s o ++ " : AmazonClientCmdlet") ++
            lineAt 1 "\x7b") ++
          String.join (o.properties.map fun p =>
            (r.resolve ⟨s.id, o.name, p.name⟩).parameterText s p (o.customization? p.name) 2 ++
              "\n") ++
          ("\n" ++ middle ++ lineAt 3 "var context = new CmdletContext();") ++
          String.join bindings ++
          ("\n" ++ lineAt 3 "var output = Execute(context) as CmdletOutput;" ++ back)

variable {s r o}

/-- If every property is bound, every property has an emission. -/
theorem AllBound.exists_emission (h : AllBound s r o) :
    ∀ p ∈ o.properties, ∃ e, emission s r o p = .ok e :=
  fun p hp => exists_emission_of_bindingText (h p hp)

end

/-- **A cmdlet is put together from independent emissions**: every emitter adds a text of its own
to the writer, and the cmdlet has these texts in order, or fails as the first of its properties
does and then as its paging does. -/
theorem compositionLaw (s : Service) (r : Registry) :
    (∀ e p c, EmissionLaw e s p c) ∧ ∀ o, CompositionLaw s r o := by
  refine ⟨fun e p c => emissionLaw e s p c, fun o => ⟨?unbound, ?no_token, ?no_limit, ?source⟩⟩
  case unbound =>
    intro before p after error hproperties hbefore hp
    exact generateOne_of_error (outlineOf_of_emission_error hproperties
      (fun q hq => exists_emission_of_bindingText (hbefore q hq)) (bindingText_eq_error_iff.mp hp))
  case no_token =>
    intro hall g hg htoken
    exact generateOne_of_error
      (outlineOf_of_paging_error hall.exists_emission hg (pagingOf_of_no_token htoken))
  case no_limit =>
    intro hall g name hg htoken hname hlimit
    exact generateOne_of_error
      (outlineOf_of_paging_error hall.exists_emission hg (pagingOf_of_no_limit htoken hname hlimit))
  case source =>
    intro hall hpaging
    obtain ⟨x, hx⟩ := exists_outlineOf hall.exists_emission fun g hg =>
      exists_pagingOf (hpaging g hg).1 (hpaging g hg).2
    have houtlines := outlines_of_outlineOf hx
    have hsource : x.cmdlet.source = _ := x.source_eq
    rw [parametersText_of_outlines houtlines, Outline.bindingsText, houtlines.service_eq,
      houtlines.operation_eq] at hsource
    exact ⟨x.cmdlet, _, _, _, _, generateOne_eq_ok_iff.mpr ⟨x, hx, rfl⟩,
      bindingTexts_of_outlines houtlines, hsource⟩

end CmdletForge.Cmdlet
