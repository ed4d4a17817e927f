import CmdletForge.Proofs.Cmdlet.Declarations

/-!
# CmdletForge.Proofs.Cmdlet.Members

The members that the methods of a cmdlet use: those of the cmdlet itself, and those of the context
in each of its two methods.

1. A binding uses the parameters that it takes a value from and the properties that it gives one
   to.  No other part of the first method has a member of the context.
2. When names are identifiers, the text of the methods mentions the members that their code has.  A
   type may stand in a binding, so it must not begin with the variable that is looked for.
-/

namespace CmdletForge.Cmdlet

open Source (Step Code Apart IsIdentifier IsDotted firstName)
open Source.Step (codeOf)

/-! ## Variables -/

/-- The variables of the two methods that hold the context. -/
def contextVariables : List String := [Outline.contextVariable, "cmdletContext"]

/-- The variables whose members are looked at. -/
def ownerVariables : List String := "this" :: contextVariables

/-- Other variables are none of these. -/
theorem ne_owner (howner : owner ∈ ownerVariables) (ho : o ∉ ownerVariables) : o ≠ owner :=
  (ne_of_mem_of_not_mem howner ho).symm

/-- Code without names stands apart when it does so for each of them. -/
theorem apart_fixed (howner : owner ∈ ownerVariables) (h : ∀ o ∈ ownerVariables, Apart o c) :
    Apart owner c :=
  h owner howner

/-- The variables that stand in front of a member are written in letters. -/
theorem all_isNameChar :
    ∀ o ∈ "request" :: ownerVariables, o.toList.all Source.isNameChar = true := by
  decide +kernel

/-- A member of one of these variables, in front of a text that breaks off. -/
theorem apart_member (ho : o ∈ "request" :: ownerVariables) (hname : IsIdentifier name)
    (hbreaks : Source.Breaks t) (ht : Apart owner [.text t]) :
    Apart owner [.member o name, .text t] :=
  Source.apart_member (List.all_eq_true.mp (all_isNameChar o ho)) hname hbreaks ht

section
variable (howner : owner ∈ ownerVariables)
include howner

theorem apart_end : Apart owner [.text ";"] := apart_fixed howner (by decide +kernel)

theorem apart_equals : Apart owner [.text " = "] := apart_fixed howner (by decide +kernel)

theorem apart_comma : Apart owner [.text ", "] := apart_fixed howner (by decide +kernel)

/-- One member is assigned to another. -/
theorem apart_assignment (htarget : target ∈ "request" :: ownerVariables)
    (hproperty : IsIdentifier property) (hsource : source ∈ "request" :: ownerVariables)
    (hname : IsIdentifier name) :
    Step.Apart owner [.line [.member target property, " = ", .member source name, ";"]] :=
  Step.apart_line <|
    (apart_member htarget hproperty (by decide) (apart_equals howner)).append
      (apart_member hsource hname (by decide) (apart_end howner))

end

/-! ## Bindings -/

namespace Binding

/-- The parameters that a value is taken from. -/
def parameters : Binding → List String
  | .absent => []
  | .assigned _ parameter => [parameter]
  | .parsed _ _ parameter => [parameter, parameter]
  | .chosen _ _ => [StorageClass.standard.switch, StorageClass.reducedRedundancy.switch]

/-- The properties that a value is given to. -/
def properties : Binding → List String
  | .absent => []
  | .assigned property _ => [property]
  | .parsed _ property _ => [property]
  | .chosen _ property => [property, property]

/-- The type that stands in a binding. -/
def type? : Binding → Option String
  | .absent | .assigned _ _ => none
  | .parsed type _ _ => some type.typeName
  | .chosen typeName _ => some typeName

/-- A binding reads its parameters from the cmdlet, and nothing else. -/
theorem membersOf_this (b : Binding) :
    (codeOf (b.steps Outline.contextVariable)).membersOf "this" = b.parameters := by
  cases b <;>
    simp [steps, parsing, choosing, parameters, Outline.contextVariable, Step.plain,
      Code.membersOf]

/-- A binding sets its properties on the context, and nothing else. -/
theorem membersOf_context (b : Binding) :
    (codeOf (b.steps Outline.contextVariable)).membersOf Outline.contextVariable =
      b.properties := by
  cases b <;>
    simp [steps, parsing, choosing, properties, Outline.contextVariable, Step.plain,
      Code.membersOf]

/-- A binding does not touch the context of the call. -/
theorem membersOf_cmdletContext (b : Binding) :
    (codeOf (b.steps Outline.contextVariable)).membersOf "cmdletContext" = [] := by
  cases b <;>
    simp [steps, parsing, choosing, Outline.contextVariable, Step.plain, Code.membersOf]

/-- The names in a binding are identifiers, and its type does not begin with a variable. -/
structure IsNamed (owner : String) (b : Binding) : Prop where
  parameters : ∀ name ∈ b.parameters, IsIdentifier name
  properties : ∀ name ∈ b.properties, IsIdentifier name
  type : ∀ typeName, b.type? = some typeName → IsDotted typeName ∧ firstName typeName ≠ owner

section
variable (howner : owner ∈ ownerVariables)
include howner

/-- A value that is parsed, with a check. -/
theorem apart_parsed (hproperty : IsIdentifier property) (hparameter : IsIdentifier parameter)
    (htype : IsDotted type.typeName) (hfirst : firstName type.typeName ≠ owner) :
    Step.Apart owner ((parsed type property parameter).steps Outline.contextVariable) := by
  have htyped {t : String} (hbreaks : Source.Breaks t) (ht : Apart owner [.text t]) :
      Apart owner [.text type.typeName, .text t] :=
    Source.apart_type htype hfirst hbreaks ht
  have hgiven : Apart owner
      ["if (!string.IsNullOrEmpty(", .member "this" parameter, "))"] :=
    (apart_fixed howner (by decide +kernel) : Apart owner ["if (!string.IsNullOrEmpty("]).append
      (apart_member (by decide) hparameter (by decide)
        (apart_fixed howner (by decide +kernel)))
  have hopen : Apart owner [.member Outline.contextVariable property, " = ("] :=
    apart_member (by decide) hproperty (by decide) (apart_fixed howner (by decide +kernel))
  have hcast : Apart owner [.text type.typeName, ")System.Enum.Parse(typeof("] :=
    htyped (by decide) (apart_fixed howner (by decide +kernel))
  have hof : Apart owner [.text type.typeName, "), "] :=
    htyped (by decide) (apart_fixed howner (by decide +kernel))
  have hvalue : Apart owner [.member "this" parameter, ", true);"] :=
    apart_member (by decide) hparameter (by decide) (apart_fixed howner (by decide +kernel))
  have hparse : Apart owner
      [.member Outline.contextVariable property, " = (", type.typeName,
        ")System.Enum.Parse(typeof(", type.typeName, "), ", .member "this" parameter, ", true);"] :=
    hopen.append (hcast.append (hof.append hvalue))
  have hthrow : Apart owner
      ["throw new System.ArgumentException(", .literal (invalidValueMessage type.members), ", ",
        .literal parameter, ");"] :=
    (apart_fixed howner (by decide +kernel) :
        Apart owner ["throw new System.ArgumentException("]).append <|
      (Source.apart_literal _ _).append <| (apart_comma howner).append <|
        (Source.apart_literal _ _).append (apart_fixed howner (by decide +kernel))
  have htry : ∀ o ∈ ownerVariables, Source.Reads o (Code.print [.text "try"] ++ "\n") [] := by
    decide +kernel
  have hcatch : Apart owner [.text "catch (System.ArgumentException)"] :=
    apart_fixed howner (by decide +kernel)
  exact Step.Apart.line_cons hgiven <| Step.Apart.block <|
    (((Step.apart_line_of_reads (htry owner howner)).append (Step.apart_line hparse).block).append
      (Step.apart_line hcatch)).append (Step.apart_line hthrow).block

/-- A storage class that is taken when its switch is given. -/
theorem apart_choosing (keyword : String) (k : StorageClass)
    (hkeyword : ∀ o ∈ ownerVariables,
      Apart o [.text keyword, " (", .member "this" k.switch, ".IsPresent)"])
    (hproperty : IsIdentifier property) (htype : IsDotted typeName)
    (hfirst : firstName typeName ≠ owner) :
    Step.Apart owner (choosing Outline.contextVariable typeName property keyword k) := by
  have htarget : Apart owner [.member Outline.contextVariable property, " = "] :=
    apart_member (by decide) hproperty (by decide) (apart_equals howner)
  have hvalue : Apart owner [typeName, ".", k.member, ";"] := by
    refine Source.apart_of_chain (typeName.toList ++ '.' :: k.member.toList) ";" ?_ (by simp) ?_
      (by decide) (apart_end howner) ?_
    · simp [Code.print, Source.Piece.print, String.toList_append]
    · have hmember : ('.' :: k.member.toList).all Source.isChainChar = true := by
        cases k <;> decide +kernel
      intro c hc
      exact (List.mem_append.mp hc).elim (htype.isChainChar c) (List.all_eq_true.mp hmember c)
    · rw [Source.memberOf?_eq_none (.inr ⟨_, rfl⟩) hfirst]
      rfl
  exact Step.Apart.line_cons (hkeyword owner howner) (Step.apart_line (htarget.append hvalue)).block

/-- **The text of a binding mentions the members that it uses.** -/
theorem apart_steps {b : Binding} (h : b.IsNamed owner) :
    Step.Apart owner (b.steps Outline.contextVariable) := by
  cases b with
  | absent => exact Step.apart_nil owner
  | assigned property parameter =>
    exact apart_assignment howner (by decide) (h.properties _ (.head _)) (by decide)
      (h.parameters _ (.head _))
  | parsed type property parameter =>
    obtain ⟨htype, hfirst⟩ := h.type _ rfl
    exact apart_parsed howner (h.properties _ (.head _)) (h.parameters _ (.head _)) htype hfirst
  | chosen typeName property =>
    obtain ⟨htype, hfirst⟩ := h.type _ rfl
    have hproperty := h.properties _ (.head _)
    exact (apart_choosing howner "if" .standard (by decide +kernel) hproperty htype hfirst).append
      (apart_choosing howner "else if" .reducedRedundancy (by decide +kernel) hproperty htype
        hfirst)

end

end Binding

/-! ## Places -/

section
variable (owner : String)

/-- A parameter uses no members. -/
theorem membersOf_declaration (d : Declaration) : (codeOf d.steps).membersOf owner = [] := by
  obtain ⟨front, hfront, hcode⟩ := d.codeOf_steps
  rw [hcode, Code.membersOf_append, Code.membersOf_of_isPlain hfront]
  rfl

/-- The switches use no member. -/
theorem membersOf_switches (x : Outline) : (codeOf x.switches).membersOf owner = [] := by
  unfold Outline.switches
  split <;> split <;> simp [Outline.switchSteps]

end

namespace Outline

/-- What is written to fill the request. -/
def filling (x : Outline) : List Step := x.contextProperties.flatMap requestMember

/-- The line that takes the token from the context. -/
def tokenCode (y : Paging) : Code :=
  ["var _nextToken = ", .member "cmdletContext" y.token, ";"]

/-- The lines of a paged call that use members. -/
def pagingLines (x : Outline) : List Step :=
  x.paging.toList.flatMap fun y => [.line (tokenCode y), .line (pagingCondition y)]

section
variable (howner : owner ∈ ownerVariables)
include howner

/-- Of the method that calls the service only the request and the paging use members. -/
theorem membersOf_executeMethod (x : Outline) :
    (codeOf x.executeMethod).membersOf owner =
      (codeOf x.filling).membersOf owner ++ (codeOf x.pagingLines).membersOf owner := by
  have hrequest := ne_owner howner (o := "request") (by decide)
  have hresponse := ne_owner howner (o := "response") (by decide)
  unfold executeMethod filling pagingLines
  cases x.paging with
  | none => simp [singleCall, callSteps]
  | some y =>
    have hcap : (codeOf (capSteps y)).membersOf owner = [] := by
      unfold capSteps
      split <;> simp [hrequest]
    cases hlargest : cap? y <;>
      simp [pagedCall, callSteps, hlargest, hcap, tokenCode, hrequest, hresponse]

/-- **The places where members are used**: there are no others in a cmdlet. -/
theorem membersOf_steps (x : Outline) :
    (codeOf x.steps).membersOf owner =
      (codeOf x.confirmation).membersOf owner ++ (codeOf x.bindings).membersOf owner ++
        (codeOf x.filling).membersOf owner ++ (codeOf x.pagingLines).membersOf owner := by
  have hparameters : (codeOf x.parameters).membersOf owner = [] := by
    simp [parameters, Emission.parameterSteps, Step.codeOf_flatMap, Code.membersOf_flatMap,
      membersOf_declaration]
  have hattribute := Code.membersOf_of_isPlain x.isPlain_commandAttribute owner
  have hcontext : (codeOf x.contextClass).membersOf owner = [] := by
    simp [contextClass, Step.codeOf_map_line, Code.membersOf_flatMap]
  simp [steps, opening, classSteps, processMethod, hattribute, hparameters, hcontext,
    membersOf_switches, membersOf_executeMethod howner]

end

/-! ## The members that are used -/

/-- The confirmation uses the switch that skips it, and only when the operation changes
something. -/
theorem mem_membersOf_confirmation {x : Outline}
    (h : name ∈ (codeOf x.confirmation).membersOf owner) :
    owner = "this" ∧ name = forceSwitch ∧ x.operation.isMutating = true := by
  have hvalues := Code.membersOf_of_isPlain x.isPlain_confirmedValues owner
  unfold confirmation at h
  split at h
  · next hmutating =>
    have hname : "this" = owner ∧ name = forceSwitch := by
      simpa [confirmQuestion, hvalues] using h
    exact ⟨hname.1.symm, hname.2, hmutating⟩
  · contradiction

/-- The request is filled from the properties of the context. -/
theorem mem_membersOf_filling {x : Outline} (howner : owner ∈ ownerVariables)
    (h : name ∈ (codeOf x.filling).membersOf owner) :
    owner = "cmdletContext" ∧ name ∈ x.contextProperties.map (·.name) := by
  have hrequest := ne_owner howner (o := "request") (by decide)
  rw [filling, Step.codeOf_flatMap, Code.membersOf_flatMap, List.mem_flatMap] at h
  obtain ⟨p, hp, hname⟩ := h
  by_cases hcontext : "cmdletContext" = owner
  · obtain rfl : name = p.name := by simpa [requestMember, hrequest, hcontext] using hname
    exact ⟨hcontext.symm, List.mem_map_of_mem hp⟩
  · simp [requestMember, hrequest, hcontext] at hname

/-- The token of a page is read from the context of the call. -/
theorem mem_membersOf_tokenCode {y : Paging} (h : name ∈ (tokenCode y).membersOf owner) :
    owner = "cmdletContext" ∧ name = y.token := by
  have hname : "cmdletContext" = owner ∧ name = y.token := by simpa [tokenCode] using h
  exact ⟨hname.1.symm, hname.2⟩

/-- The condition of the paging uses the switch for a single page, the token parameter and the limit
parameter. -/
theorem mem_membersOf_pagingCondition {y : Paging}
    (h : name ∈ (pagingCondition y).membersOf owner) :
    owner = "this" ∧
      (name = onePageSwitch ∨ name = y.tokenParameter ∨ ∃ l, y.limit = some (l, name)) := by
  by_cases hthis : "this" = owner
  · refine ⟨hthis.symm, ?_⟩
    cases hlimit : y.limit with
    | none => simpa [pagingCondition, hlimit, hthis] using h
    | some l =>
      cases hparameter : l.2.isEmpty with
      | true =>
        have hname : name = onePageSwitch ∨ name = y.tokenParameter := by
          simpa [pagingCondition, hlimit, hparameter, hthis] using h
        exact hname.imp_right .inl
      | false =>
        have hname : name = onePageSwitch ∨ name = y.tokenParameter ∨ name = l.2 := by
          simpa [pagingCondition, hlimit, hparameter, hthis] using h
        exact hname.imp_right (.imp_right fun heq => ⟨l.1, by rw [heq]⟩)
  · cases hlimit : y.limit with
    | none => simp [pagingCondition, hlimit, hthis] at h
    | some l =>
      cases hparameter : l.2.isEmpty <;> simp [pagingCondition, hlimit, hparameter, hthis] at h

/-- The members that paging uses are those of its token and of its condition. -/
theorem mem_membersOf_pagingLines {x : Outline}
    (h : name ∈ (codeOf x.pagingLines).membersOf owner) :
    ∃ y, x.paging = some y ∧
      (name ∈ (tokenCode y).membersOf owner ∨ name ∈ (pagingCondition y).membersOf owner) := by
  rw [pagingLines, Step.codeOf_flatMap, Code.membersOf_flatMap, List.mem_flatMap] at h
  obtain ⟨y, hy, hname⟩ := h
  exact ⟨y, Option.mem_toList.mp hy, by simpa using hname⟩

/-! ## The texts of the places -/

section
variable (howner : owner ∈ ownerVariables)
include howner

/-- The text of the confirmation mentions its members and no other. -/
theorem apart_confirmation (x : Outline) : Step.Apart owner x.confirmation := by
  have hnames (names : List String) :
      Apart owner (Code.separated ", " (names.map fun name => [.literal name])) :=
    Source.apart_separated (apart_comma howner) (by simp [Source.apart_literal])
  have hvalues : Apart owner x.confirmedValues :=
    ((apart_fixed howner (by decide +kernel) : Apart owner [.text
      "var resourceIdentifiersText = FormatParameterValuesForConfirmationMsg(new[] \x7b "]).append
        (hnames _)).append (apart_fixed howner (by decide +kernel))
  have hquestion : Apart owner x.confirmQuestion :=
    (apart_fixed howner (by decide +kernel) : Apart owner ["if (!ConfirmShouldProceed(",
      .member "this" forceSwitch, ".IsPresent, resourceIdentifiersText, "]).append
        ((Source.apart_literal _ _).append (apart_fixed howner (by decide +kernel)))
  have hblank : Apart owner [] := apart_fixed howner (by decide +kernel)
  have hreturn : Step.Apart owner [.plain "return;"] :=
    Step.apart_line (apart_fixed howner (by decide +kernel))
  unfold confirmation
  split
  · exact (Step.Apart.line_cons hblank (Step.Apart.line_cons hvalues
      (Step.apart_line hquestion))).append hreturn.block
  · exact Step.apart_nil owner

/-- The text that fills the request mentions its members and no other, if these are identifiers. -/
theorem apart_filling {x : Outline} (h : ∀ p ∈ x.contextProperties, IsIdentifier p.name) :
    Step.Apart owner x.filling := by
  have hif : Apart owner [.text "if ("] := apart_fixed howner (by decide +kernel)
  have hnull : Apart owner [.text " != null)"] := apart_fixed howner (by decide +kernel)
  refine Step.apart_flatMap fun p hp => ?_
  have hgiven : Apart owner ["if (", .member "cmdletContext" p.name, " != null)"] :=
    hif.append (apart_member (by decide) (h p hp) (by decide) hnull)
  exact Step.Apart.line_cons hgiven
    (apart_assignment howner (by decide) (h p hp) (by decide) (h p hp)).block

theorem apart_tokenCode {y : Paging} (h : IsIdentifier y.token) : Apart owner (tokenCode y) := by
  have hvar : Apart owner [.text "var _nextToken = "] := apart_fixed howner (by decide +kernel)
  exact hvar.append (apart_member (by decide) h (by decide) (apart_end howner))

/-- The text of the paging's condition mentions its members and no other, if these are
identifiers. -/
theorem apart_pagingCondition {y : Paging} (htoken : IsIdentifier y.tokenParameter)
    (hlimit : ∀ l parameter, y.limit = some (l, parameter) → IsIdentifier parameter) :
    Apart owner (pagingCondition y) := by
  have hend := apart_end howner
  have hswitch : Apart owner ["var _userControllingPaging = ", .member "this" onePageSwitch,
      ".IsPresent", " || ParameterWasBound(nameof("] := apart_fixed howner (by decide +kernel)
  have hbound : Apart owner [.text " || ParameterWasBound(nameof("] :=
    apart_fixed howner (by decide +kernel)
  have hnamed {parameter : String} (h : IsIdentifier parameter) :
      Apart owner [.member "this" parameter, "))"] :=
    apart_member (by decide) h (by decide) (apart_fixed howner (by decide +kernel))
  have hfront := hswitch.append (hnamed htoken)
  unfold pagingCondition
  split
  · next l parameter hl =>
    split
    · exact hfront.append hend
    · exact (hfront.append (hbound.append (hnamed (hlimit l parameter hl)))).append hend
  · exact hfront.append hend

/-- The text of the paging mentions its members and no other, if these are identifiers. -/
theorem apart_pagingLines {x : Outline}
    (h : ∀ y, x.paging = some y → IsIdentifier y.token ∧ IsIdentifier y.tokenParameter ∧
      ∀ l parameter, y.limit = some (l, parameter) → IsIdentifier parameter) :
    Step.Apart owner x.pagingLines :=
  Step.apart_flatMap fun y hy => by
    obtain ⟨htoken, hparameter, hlimit⟩ := h y (Option.mem_toList.mp hy)
    exact Step.Apart.line_cons (apart_tokenCode howner htoken)
      (Step.apart_line (apart_pagingCondition howner hparameter hlimit))

end

end Outline

end CmdletForge.Cmdlet
