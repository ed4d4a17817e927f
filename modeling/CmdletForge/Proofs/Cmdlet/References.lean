import CmdletForge.Proofs.Cmdlet.Places
import CmdletForge.Proofs.Cmdlet.Validation

/-!
# CmdletForge.Proofs.Cmdlet.References

A cmdlet refers to what it declares.

1. A property is bound from the parameters that are declared for it, and it is given a value when
   it has a place in the context.
2. The paging takes its token and its limit from properties that it finds by their names, and so
   the parameters that it asks for are those of properties too.
3. `ReferenceLaw` reads the references in the texts of the places where a cmdlet refers to
   something, and the declarations in the texts of its regions and of its context.
-/

namespace CmdletForge.Cmdlet

open Source (Step Within IsIdentifier IsDotted firstName lineAt mentions)
open Source.Step (codeOf textAt)

/-! ## Emitters -/

namespace Emitter

/-- Whether the type of a property is written where its value is bound. -/
def writesType : Emitter → Bool
  | .httpVerb | .protocol | .storageClass => true
  | .default | .accelerate | .dualstack => false

variable {e : Emitter} {s : Service} {p : Property} {c : Option Customization} {name : String}

/-- What is bound by each emitter. -/
theorem binding_cases (h : e.binding s p c = .ok b) :
    e = .default ∧ b = .assigned p.name (parameterName p c) ∨
      (e = .accelerate ∨ e = .dualstack) ∧ b = .absent ∨
      (e = .httpVerb ∨ e = .protocol) ∧
        (∃ t, t.typeName = p.typeName ∧ b = .parsed t p.name (parameterName p c)) ∨
      e = .storageClass ∧ b = .chosen p.typeName p.name := by
  cases e with
  | default => exact .inl ⟨rfl, (Except.ok.inj h).symm⟩
  | accelerate => exact .inr (.inl ⟨.inl rfl, (Except.ok.inj h).symm⟩)
  | dualstack => exact .inr (.inl ⟨.inr rfl, (Except.ok.inj h).symm⟩)
  | httpVerb | protocol =>
    obtain ⟨t, ⟨_, _, -, htype, -⟩, -, hb⟩ := parsedBinding_eq_ok_iff.mp h
    exact .inr (.inr (.inl ⟨by simp, t, htype, hb⟩))
  | storageClass => exact .inr (.inr (.inr ⟨rfl, (Except.ok.inj h).symm⟩))

/-- A value is taken from parameters of the property. -/
theorem mem_declarations_of_binding (h : e.binding s p c = .ok b) (hname : name ∈ b.parameters) :
    name ∈ (e.declarations s p c).map (·.name) := by
  obtain ⟨rfl, rfl⟩ | ⟨-, rfl⟩ | ⟨he, t, -, rfl⟩ | ⟨rfl, rfl⟩ := binding_cases h
  · exact hname
  · contradiction
  · rw [names_declarations (by rcases he with rfl | rfl <;> decide)]
    simpa [Binding.parameters] using hname
  · exact hname

/-- It is given to the property, which has a place in the context. -/
theorem eq_name_of_binding (h : e.binding s p c = .ok b) (hname : name ∈ b.properties) :
    name = p.name ∧ e ≠ .accelerate ∧ e ≠ .dualstack := by
  obtain ⟨rfl, rfl⟩ | ⟨-, rfl⟩ | ⟨rfl | rfl, t, -, rfl⟩ | ⟨rfl, rfl⟩ := binding_cases h
  · exact ⟨List.mem_singleton.mp hname, by decide, by decide⟩
  · contradiction
  · exact ⟨List.mem_singleton.mp hname, by decide, by decide⟩
  · exact ⟨List.mem_singleton.mp hname, by decide, by decide⟩
  · exact ⟨by simpa [Binding.properties] using hname, by decide, by decide⟩

/-- The names in a binding are those of the property and its parameter. -/
theorem isNamed_of_binding (h : e.binding s p c = .ok b) (hproperty : IsIdentifier p.name)
    (hparameter : IsIdentifier (parameterName p c)) (htype : IsDotted p.typeName)
    (hfirst : e.writesType = true → firstName p.typeName ≠ owner) : b.IsNamed owner where
  parameters name hname := by
    by_cases he : e = .storageClass
    · subst he
      obtain rfl := Except.ok.inj h
      have hswitches : ∀ name ∈
          [StorageClass.standard.switch, StorageClass.reducedRedundancy.switch],
          IsIdentifier name := by
        decide
      exact hswitches name hname
    · have hmem := mem_declarations_of_binding h hname
      rw [names_declarations he, List.mem_singleton] at hmem
      rwa [hmem]
  properties name hname := (eq_name_of_binding h hname).1 ▸ hproperty
  type typeName hb := by
    obtain ⟨rfl, rfl⟩ | ⟨-, rfl⟩ | ⟨he, t, ht, rfl⟩ | ⟨rfl, rfl⟩ := binding_cases h
    · contradiction
    · contradiction
    · obtain rfl := Option.some.inj hb
      rw [ht]
      exact ⟨htype, hfirst (by rcases he with rfl | rfl <;> rfl)⟩
    · obtain rfl := Option.some.inj hb
      exact ⟨htype, hfirst rfl⟩

end Emitter

/-! ## The law of references -/

section
variable (s : Service) (r : Registry) (o : Operation)

/-- The names of a request are names. -/
structure WellNamed : Prop where
  property : ∀ p ∈ o.properties, IsIdentifier p.name
  parameter : ∀ p ∈ o.properties, IsIdentifier (parameterName p (o.customization? p.name))
  type : ∀ p ∈ o.properties, IsDotted p.typeName

/-- The properties that the paging takes have a parameter of their own and a place in the
context. -/
def PagesByParameters : Prop :=
  ∀ name ∈ pagingNames o,
    r.resolve ⟨s.id, o.name, name⟩ ∉ [Emitter.accelerate, .dualstack, .storageClass]

/-- What is to be said of the references of a cmdlet. -/
structure ReferenceLaw (x : Outline) : Prop where
  /-- The texts of the properties stand in the source... -/
  properties_within : ∀ p ∈ o.properties, Within (parameterText s r o 2 p) x.source ∧
    ∃ text, bindingText s r o 3 p = .ok text ∧ Within text x.source
  /-- ...and so do those of the other parts that are looked at. -/
  parts_within : ∀ part ∈ [textAt 2 x.switches, textAt 3 x.confirmation, textAt 3 x.filling,
    textAt 3 x.pagingLines, textAt 2 x.contextClass], Within part x.source
  /-- A property is bound from parameters that are declared for it. -/
  bindings : ∀ p ∈ o.properties, ∀ text, bindingText s r o 3 p = .ok text →
    ∀ name ∈ mentions "this" text, Declares (parameterText s r o 2 p) name
  /-- A confirmation is asked for unless its switch is given. -/
  confirmation : ∀ name ∈ mentions "this" (textAt 3 x.confirmation),
    name = Outline.forceSwitch ∧ Declares (textAt 2 x.switches) name
  /-- Paging looks at its switch, and at the parameters of its token and of its limit. -/
  paging : ∀ name ∈ mentions "this" (textAt 3 x.pagingLines),
    name = Outline.onePageSwitch ∧ Declares (textAt 2 x.switches) name ∨
      ∃ p ∈ o.properties, p.name ∈ pagingNames o ∧ Declares (parameterText s r o 2 p) name
  /-- The switches are there for the kinds of operations that need them. -/
  switches : (codeOf x.switches).declared =
    (if o.pagination.isSome then [Outline.onePageSwitch] else []) ++
      (if o.isMutating then [Outline.forceSwitch] else [])
  /-- No other member of the cmdlet is used in its code. -/
  own_members : ∀ name ∈ (codeOf x.steps).membersOf "this", Declares x.source name
  /-- A binding gives values to members of the context, provided that the type in it does not look
  like one of them. -/
  context_bindings : ∀ owner ∈ contextVariables, ∀ p ∈ o.properties,
    ((emitterOf s r o p).writesType = true → firstName p.typeName ≠ owner) →
    ∀ text, bindingText s r o 3 p = .ok text →
      ∀ name ∈ mentions owner text, name ∈ x.contextProperties.map (·.name)
  /-- The other places take values from members of the context. -/
  context_places : ∀ owner ∈ contextVariables,
    ∀ part ∈ [textAt 3 x.confirmation, textAt 3 x.filling, textAt 3 x.pagingLines],
      ∀ name ∈ mentions owner part, name ∈ x.contextProperties.map (·.name)
  /-- No other member of the context is used in the code. -/
  context_members : ∀ owner ∈ contextVariables,
    ∀ name ∈ (codeOf x.steps).membersOf owner, name ∈ x.contextProperties.map (·.name)
  /-- The context has its members and no others. -/
  context : (∀ name ∈ x.contextProperties.map (·.name), HasMember (textAt 2 x.contextClass) name) ∧
    (codeOf x.contextClass).declared = x.contextProperties.map (·.name)
  /-- A property for an endpoint is not among them. -/
  endpoints : ∀ p ∈ o.properties,
    emitterOf s r o p = .accelerate ∨ emitterOf s r o p = .dualstack →
      p.name ∉ x.contextProperties.map (·.name)

end

section
variable {s : Service} {r : Registry} {o : Operation} {x : Outline}

/-- The property that a paging takes has the parameter of its name. -/
theorem declares_of_pagingNames (h : Outlines s r o x) (hpaging : PagesByParameters s r o)
    (hp : p ∈ o.properties) (hname : p.name ∈ pagingNames o) :
    Declares (parameterText s r o 2 p) (parameterName p (o.customization? p.name)) := by
  obtain ⟨e, -, he⟩ := h.exists_emission hp
  rw [parameterText_of_emission he]
  obtain ⟨b, -, rfl⟩ := emission_eq_ok_iff.mp he
  have hstorage : emitterOf s r o p ≠ .storageClass := fun heq => hpaging _ hname (by
    rw [← emitterOf, heq]
    decide)
  refine Emission.declares ?_
  rw [Emitter.names_declarations hstorage]
  exact .head _

/-- The members that a binding mentions. -/
theorem mentions_bindingText (hnames : WellNamed o) (howner : owner ∈ ownerVariables)
    (hp : p ∈ o.properties)
    (htype : (emitterOf s r o p).writesType = true → firstName p.typeName ≠ owner)
    (he : emission s r o p = .ok e) (htext : bindingText s r o 3 p = .ok text) :
    mentions owner text = (codeOf (e.binding.steps Outline.contextVariable)).membersOf owner := by
  rw [bindingText_of_emission he] at htext
  obtain rfl := Except.ok.inj htext
  obtain ⟨b, hb, rfl⟩ := emission_eq_ok_iff.mp he
  exact (Binding.apart_steps howner (Emitter.isNamed_of_binding hb (hnames.property p hp)
    (hnames.parameter p hp) (hnames.type p hp) htype) 3).mentions_eq

/-- A dotted name does not begin with the cmdlet itself. -/
theorem firstName_ne_this (h : IsDotted typeName) : firstName typeName ≠ "this" :=
  h.isIdentifier_firstName.2.1

/-- The parameters and the binding of each property stand in the source. -/
theorem Outlines.properties_within (h : Outlines s r o x) (hp : p ∈ o.properties) :
    Within (parameterText s r o 2 p) x.source ∧
      ∃ text, bindingText s r o 3 p = .ok text ∧ Within text x.source := by
  obtain ⟨e, he, hemission⟩ := h.exists_emission hp
  rw [parameterText_of_emission hemission]
  exact ⟨Outline.within_parameterSteps he, _, bindingText_of_emission hemission 3,
    Outline.within_bindingSteps he⟩

/-- A property is bound from its parameters. -/
theorem declares_of_mem_binding (he : emission s r o p = .ok e)
    (hname : name ∈ e.binding.parameters) : Declares (parameterText s r o 2 p) name := by
  rw [parameterText_of_emission he]
  obtain ⟨b, hb, rfl⟩ := emission_eq_ok_iff.mp he
  exact Emission.declares (Emitter.mem_declarations_of_binding hb hname)

/-- It is given to a member of the context. -/
theorem Outlines.mem_contextNames (h : Outlines s r o x) (hp : p ∈ o.properties)
    (he : emission s r o p = .ok e) (hname : name ∈ e.binding.properties) :
    name ∈ x.contextProperties.map (·.name) := by
  obtain ⟨b, hb, rfl⟩ := emission_eq_ok_iff.mp he
  obtain ⟨rfl, hcontext⟩ := Emitter.eq_name_of_binding hb hname
  exact List.mem_map_of_mem (h.mem_contextProperties_iff.mpr ⟨hp, hcontext⟩)

/-! ## Members in the code -/

/-- A confirmation looks at its switch. -/
theorem declares_of_mem_confirmation (hname : name ∈ (codeOf x.confirmation).membersOf "this") :
    name = Outline.forceSwitch ∧ Declares (textAt 2 x.switches) name := by
  obtain ⟨-, rfl, hmutating⟩ := Outline.mem_membersOf_confirmation hname
  exact ⟨rfl, Outline.declares_forceSwitch hmutating⟩

/-- The variables with the context are not the cmdlet itself. -/
theorem ne_this_of_mem (howner : owner ∈ contextVariables) : owner ≠ "this" := by
  rintro rfl
  revert howner
  decide

namespace Outlines

variable (h : Outlines s r o x)
include h

/-- Parameters of properties are declared in the source. -/
theorem declares_source (hp : p ∈ o.properties) (hname : Declares (parameterText s r o 2 p) name) :
    Declares x.source name :=
  hname.within (h.properties_within hp).1

/-- Paging looks at its switch, and at the parameters of the properties that it takes. -/
theorem declares_of_mem_pagingLines (hpaging : PagesByParameters s r o)
    (hname : name ∈ (codeOf x.pagingLines).membersOf "this") :
    name = Outline.onePageSwitch ∧ Declares (textAt 2 x.switches) name ∨
      ∃ p ∈ o.properties, p.name ∈ pagingNames o ∧ Declares (parameterText s r o 2 p) name := by
  obtain ⟨y, hy, hname⟩ := Outline.mem_membersOf_pagingLines hname
  obtain ⟨⟨p, hp, hpname, -, htoken⟩, hlimit⟩ := h.paging_cases hy
  rcases hname with hname | hname
  · have := (Outline.mem_membersOf_tokenCode hname).1
    contradiction
  · obtain ⟨-, rfl | rfl | ⟨l, hl⟩⟩ := Outline.mem_membersOf_pagingCondition hname
    · exact .inl ⟨rfl, Outline.declares_onePageSwitch (by rw [hy]; rfl)⟩
    · rw [htoken]
      exact .inr ⟨p, hp, hpname, declares_of_pagingNames h hpaging hp hpname⟩
    · obtain ⟨q, hq, hqname, rfl⟩ := hlimit l _ hl
      exact .inr ⟨q, hq, hqname, declares_of_pagingNames h hpaging hq hqname⟩

/-- The code of a cmdlet uses no other members of it than those that it declares. -/
theorem declares_of_mem_steps (hpaging : PagesByParameters s r o)
    (hname : name ∈ (codeOf x.steps).membersOf "this") :
    Declares x.source name := by
  rw [Outline.membersOf_steps (.head _), List.mem_append, List.mem_append, List.mem_append] at hname
  rcases hname with ((hname | hname) | hname) | hname
  · exact (declares_of_mem_confirmation hname).2.within x.within_switches
  · rw [Outline.bindings, Step.codeOf_flatMap, Source.Code.membersOf_flatMap,
      List.mem_flatMap] at hname
    obtain ⟨e, he, hname⟩ := hname
    obtain ⟨p, hp, hemission⟩ := h.exists_property he
    rw [Binding.membersOf_this] at hname
    exact h.declares_source hp (declares_of_mem_binding hemission hname)
  · have := (Outline.mem_membersOf_filling (.head _) hname).1
    contradiction
  · obtain ⟨-, hswitch⟩ | ⟨p, hp, -, hproperty⟩ := h.declares_of_mem_pagingLines hpaging hname
    · exact hswitch.within x.within_switches
    · exact h.declares_source hp hproperty

/-- Paging takes its token from a member of the context. -/
theorem context_pagingLines (hpaging : PagesByParameters s r o)
    (howner : owner ∈ contextVariables) (hname : name ∈ (codeOf x.pagingLines).membersOf owner) :
    name ∈ x.contextProperties.map (·.name) := by
  obtain ⟨y, hy, hname⟩ := Outline.mem_membersOf_pagingLines hname
  obtain ⟨⟨p, hp, hpname, htoken, -⟩, -⟩ := h.paging_cases hy
  have hemitter := hpaging _ hpname
  simp only [List.mem_cons, List.not_mem_nil, or_false, not_or] at hemitter
  rcases hname with hname | hname
  · rw [(Outline.mem_membersOf_tokenCode hname).2, ← htoken]
    exact List.mem_map_of_mem (h.mem_contextProperties_iff.mpr ⟨hp, hemitter.1, hemitter.2.1⟩)
  · exact absurd (Outline.mem_membersOf_pagingCondition hname).1 (ne_this_of_mem howner)

/-- The binding of a property gives values to a member of the context. -/
theorem context_binding (hp : p ∈ o.properties) (he : emission s r o p = .ok e)
    (howner : owner ∈ contextVariables)
    (hname : name ∈ (codeOf (e.binding.steps Outline.contextVariable)).membersOf owner) :
    name ∈ x.contextProperties.map (·.name) := by
  obtain rfl | rfl : owner = Outline.contextVariable ∨ owner = "cmdletContext" := by
    simpa [contextVariables] using howner
  · rw [Binding.membersOf_context] at hname
    exact h.mem_contextNames hp he hname
  · rw [Binding.membersOf_cmdletContext] at hname
    contradiction

/-- The code of a cmdlet uses no other members of the context than those that there are. -/
theorem context_steps (hpaging : PagesByParameters s r o) (howner : owner ∈ contextVariables)
    (hname : name ∈ (codeOf x.steps).membersOf owner) :
    name ∈ x.contextProperties.map (·.name) := by
  have howners : owner ∈ ownerVariables := .tail _ howner
  rw [Outline.membersOf_steps howners, List.mem_append, List.mem_append, List.mem_append] at hname
  rcases hname with ((hname | hname) | hname) | hname
  · exact absurd (Outline.mem_membersOf_confirmation hname).1 (ne_this_of_mem howner)
  · rw [Outline.bindings, Step.codeOf_flatMap, Source.Code.membersOf_flatMap,
      List.mem_flatMap] at hname
    obtain ⟨e, he, hname⟩ := hname
    obtain ⟨p, hp, hemission⟩ := h.exists_property he
    exact h.context_binding hp hemission howner hname
  · exact (Outline.mem_membersOf_filling howners hname).2
  · exact h.context_pagingLines hpaging howner hname

/-! ## Members in the texts -/

/-- The names in the lines of a paged call are those of properties and their parameters. -/
theorem apart_pagingLines (hnames : WellNamed o) (howner : owner ∈ ownerVariables) :
    Step.Apart owner x.pagingLines := by
  refine Outline.apart_pagingLines howner fun y hy => ?_
  obtain ⟨⟨p, hp, -, htoken, hparameter⟩, hlimit⟩ := h.paging_cases hy
  refine ⟨htoken ▸ hnames.property p hp, hparameter ▸ hnames.parameter p hp,
    fun l parameter hl => ?_⟩
  obtain ⟨q, hq, -, rfl⟩ := hlimit l parameter hl
  exact hnames.parameter q hq

theorem apart_filling (hnames : WellNamed o) (howner : owner ∈ ownerVariables) :
    Step.Apart owner x.filling :=
  Outline.apart_filling howner fun p hp => hnames.property p (h.mem_contextProperties_iff.mp hp).1

/-- A cmdlet whose names are identifiers and that pages by its own parameters refers only to what it
declares. -/
theorem follows_referenceLaw (hnames : WellNamed o) (hpaging : PagesByParameters s r o) :
    ReferenceLaw s r o x where
  properties_within p hp := h.properties_within hp
  parts_within := by
    simp only [List.forall_mem_cons]
    exact ⟨x.within_switches, x.within_confirmation, x.within_filling, x.within_pagingLines,
      x.within_contextClass, List.forall_mem_nil _⟩
  bindings p hp text htext name hname := by
    obtain ⟨e, -, he⟩ := h.exists_emission hp
    rw [mentions_bindingText hnames (.head _) hp
      (fun _ => firstName_ne_this (hnames.type p hp)) he htext, Binding.membersOf_this] at hname
    exact declares_of_mem_binding he hname
  confirmation name hname := by
    rw [(Outline.apart_confirmation (.head _) x 3).mentions_eq] at hname
    exact declares_of_mem_confirmation hname
  paging name hname := by
    rw [(h.apart_pagingLines hnames (.head _) 3).mentions_eq] at hname
    exact h.declares_of_mem_pagingLines hpaging hname
  switches := by
    rw [x.declared_switches, h.isSome_paging, h.operation_eq]
  own_members name hname := h.declares_of_mem_steps hpaging hname
  context_bindings owner howner p hp htype text htext name hname := by
    obtain ⟨e, -, he⟩ := h.exists_emission hp
    rw [mentions_bindingText hnames (.tail _ howner) hp htype he htext] at hname
    exact h.context_binding hp he howner hname
  context_places owner howner part hpart name hname := by
    have howners : owner ∈ ownerVariables := .tail _ howner
    simp only [List.mem_cons, List.not_mem_nil, or_false] at hpart
    rcases hpart with rfl | rfl | rfl
    · rw [(Outline.apart_confirmation howners x 3).mentions_eq] at hname
      exact absurd (Outline.mem_membersOf_confirmation hname).1 (ne_this_of_mem howner)
    · rw [(h.apart_filling hnames howners 3).mentions_eq] at hname
      exact (Outline.mem_membersOf_filling howners hname).2
    · rw [(h.apart_pagingLines hnames howners 3).mentions_eq] at hname
      exact h.context_pagingLines hpaging howner hname
  context_members owner howner name hname := h.context_steps hpaging howner hname
  context := ⟨fun _ hname => Outline.hasMember hname, x.declared_contextClass⟩
  endpoints p _ hp := h.not_mem_contextNames hp

end Outlines

/-- **A cmdlet refers to what it declares**: to parameters of the property that a reference is
about or to its switches, and to members of its context. -/
theorem referenceLaw (hc : generateOne s r o = .ok c) (hnames : WellNamed o)
    (hpaging : PagesByParameters s r o) :
    ∃ x, outlineOf s r o = .ok x ∧ c = x.cmdlet ∧ ReferenceLaw s r o x := by
  obtain ⟨x, hx, hcmdlet⟩ := generateOne_eq_ok_iff.mp hc
  exact ⟨x, hx, hcmdlet, (outlines_of_outlineOf hx).follows_referenceLaw hnames hpaging⟩

end

/-- An upload that is asked about and comes in pages, with a token of another name. -/
def uploading : Operation where
  name := "Upload"
  verb := "Write"
  noun := "Object"
  requestType := "UploadRequest"
  properties :=
    [ ⟨"Bucket", "System.String", true, none, none⟩,
      ⟨"StorageClass", "Amazon.S3.S3StorageClass", false, none, none⟩,
      ⟨"UseDualstackEndpoint", "System.Boolean", false, none, none⟩,
      ⟨"Marker", "System.String", false, none, none⟩ ]
  pagination := some ⟨"Marker", none, none, "Parts", some 100⟩
  confirmParameters := ["Bucket"]
  customizations := [("Marker", ⟨some "StartAt", []⟩)]

theorem referenceLaw_uploading :
    WellNamed uploading ∧ PagesByParameters (storeOf uploading) .builtin uploading ∧
      ∃ c x, generateOne (storeOf uploading) .builtin uploading = .ok c ∧ c = x.cmdlet ∧
        ReferenceLaw (storeOf uploading) .builtin uploading x := by
  have hnames : WellNamed uploading :=
    ⟨by decide +kernel, by decide +kernel, by decide +kernel⟩
  have hpaging : PagesByParameters (storeOf uploading) .builtin uploading := by
    unfold PagesByParameters
    decide +kernel
  have hok : (generateOne (storeOf uploading) .builtin uploading).isOk = true := by decide +kernel
  cases hc : generateOne (storeOf uploading) .builtin uploading with
  | error error =>
    rw [hc] at hok
    contradiction
  | ok c =>
    obtain ⟨x, -, hcmdlet, hlaw⟩ := referenceLaw hc hnames hpaging
    exact ⟨hnames, hpaging, c, x, rfl, hcmdlet, hlaw⟩

/-- A property whose type looks like a member of the context. -/
def kindProperty : Property := ⟨"StorageClass", "context.Kind", false, none, none⟩

/-- An upload with this property. -/
def kindUploading : Operation :=
  { uploading with properties := [kindProperty], pagination := none, customizations := [] }

/-- The outline of its cmdlet. -/
def kindOutline : Outline where
  service := storeOf kindUploading
  operation := kindUploading
  emissions :=
    [⟨kindProperty, .storageClass,
      Emitter.declarations .storageClass (storeOf kindUploading) kindProperty none,
      .chosen "context.Kind" "StorageClass"⟩]
  paging := none

/-- A type in a binding may look like a member that the context does not have, in spite of the
names of the request. -/
theorem mentions_undeclared_kind :
    WellNamed kindUploading ∧ PagesByParameters (storeOf kindUploading) .builtin kindUploading ∧
      ∃ x line, outlineOf (storeOf kindUploading) .builtin kindUploading = .ok x ∧
        generateOne (storeOf kindUploading) .builtin kindUploading = .ok x.cmdlet ∧
        Within (lineAt 4 line) (textAt 3 x.bindings) ∧ Within (textAt 3 x.bindings) x.source ∧
        mentions "context" line = ["StorageClass", "Kind"] ∧
        ¬ HasMember (textAt 2 x.contextClass) "Kind" := by
  have hnames : WellNamed kindUploading :=
    ⟨by decide +kernel, by decide +kernel, by decide +kernel⟩
  have hpaging : PagesByParameters (storeOf kindUploading) .builtin kindUploading := by
    unfold PagesByParameters
    decide +kernel
  have houtline : outlineOf (storeOf kindUploading) .builtin kindUploading = .ok kindOutline := rfl
  refine ⟨hnames, hpaging, kindOutline, "context.StorageClass = context.Kind.Standard;", houtline,
    generateOne_eq_ok_iff.mpr ⟨_, houtline, rfl⟩, ?_, kindOutline.within_bindings,
    by decide +kernel, fun hmember => ?_⟩
  · have hwithin := Step.within_textAt 3
      [.line ["if", " (", .member "this" "StandardStorage", ".IsPresent)"], .openBlock]
      [.line [.member "context" "StorageClass", " = ", "context.Kind", ".", "Standard", ";"]]
      (.closeBlock :: Binding.choosing "context" "context.Kind" "StorageClass" "else if"
        .reducedRedundancy)
    rwa [Step.textAt_line_cons, Step.textAt_nil, String.append_empty] at hwithin
  · have hline := hmember.within
    revert hline
    decide +kernel

end CmdletForge.Cmdlet
