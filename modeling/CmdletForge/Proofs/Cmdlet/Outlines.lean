import CmdletForge.Cmdlet.Generate
import CmdletForge.Proofs.Lists.Passes

/-!
# CmdletForge.Proofs.Cmdlet.Outlines

Which operations have an outline, and what it says of them.

1. The properties are gone through in order.  All of them become emissions, or the first failure
   is that of the operation.
2. The paging then looks for the property of its token and for that of its limit.
3. `outlines_of_outlineOf` puts both together.  An outline has nothing that it does not have from
   there, so what is said of a cmdlet later is said of the emissions of its properties.
4. The names of a paging are those of properties and of their parameters (`paging_cases`).
-/

namespace CmdletForge.Cmdlet

/-- A result that is no failure is a success. -/
theorem exists_eq_ok {α : Type} {x : Except Error α} (h : isFailure x = false) :
    ∃ a, x = .ok a := by
  cases x with
  | ok a => exact ⟨a, rfl⟩
  | error e => contradiction

variable {s : Service} {r : Registry} {o : Operation}

/-! ## Properties -/

/-- A property has an emission exactly when its emitter can bind it. -/
theorem emission_eq_ok_iff {p : Property} :
    emission s r o p = .ok e ↔
      ∃ b, (emitterOf s r o p).binding s p (o.customization? p.name) = .ok b ∧
        e = ⟨p, emitterOf s r o p,
          (emitterOf s r o p).declarations s p (o.customization? p.name), b⟩ := by
  simp only [emission]
  cases (emitterOf s r o p).binding s p (o.customization? p.name) with
  | error error => simp [Except.map]
  | ok b => simp [Except.map, eq_comm]

/-- An emission fails exactly as its binding does. -/
theorem emission_eq_error_iff {p : Property} :
    emission s r o p = .error error ↔
      (emitterOf s r o p).binding s p (o.customization? p.name) = .error error := by
  simp only [emission]
  cases (emitterOf s r o p).binding s p (o.customization? p.name) <;> simp [Except.map]

/-! ## Paging -/

/-- Whether a request has a property of a name. -/
def HasProperty (o : Operation) (name : String) : Prop := ∃ p ∈ o.properties, p.name = name

/-- The parameter of a paging property is the one the first property of that name gets. -/
theorem pagingParameter_eq_ok_iff {name : String} :
    pagingParameter o name = .ok parameter ↔
      ∃ p, o.properties.find? (·.name = name) = some p ∧
        parameter = parameterName p (o.customization? p.name) := by
  unfold pagingParameter
  cases o.properties.find? (·.name = name) with
  | none => simp
  | some p => simp [eq_comm]

/-- A property that the operation has gets a parameter. -/
theorem exists_pagingParameter {name : String} (h : HasProperty o name) :
    ∃ parameter, pagingParameter o name = .ok parameter := by
  obtain ⟨p, hp, hname⟩ := h
  have hsome : (o.properties.find? (·.name = name)).isSome :=
    List.find?_isSome.mpr ⟨p, hp, by simpa using hname⟩
  obtain ⟨q, hq⟩ := Option.isSome_iff_exists.mp hsome
  exact ⟨_, pagingParameter_eq_ok_iff.mpr ⟨q, hq, rfl⟩⟩

/-- A paging property that the operation lacks is reported by name. -/
theorem pagingParameter_of_not_hasProperty {name : String} (h : ¬ HasProperty o name) :
    pagingParameter o name = .error (.noRequestProperty o.name name) := by
  have hnone : o.properties.find? (·.name = name) = none :=
    List.find?_eq_none.mpr fun p hp hname => h ⟨p, hp, by simpa using hname⟩
  rw [pagingParameter, hnone]

/-- Once the token's parameter is known, the limit decides the rest. -/
theorem pagingOf_of_token {g : Pagination}
    (h : pagingParameter o g.token = .ok tokenParameter) :
    pagingOf o g =
      match g.limit with
      | none => .ok ⟨g.token, tokenParameter, g.nextTokenName, none, g.items, g.pageSizeCap⟩
      | some name => (pagingParameter o name).map fun parameter =>
          ⟨g.token, tokenParameter, g.nextTokenName, some (name, parameter), g.items,
            g.pageSizeCap⟩ := by
  rw [pagingOf, h]
  cases hlimit : g.limit with
  | none => rfl
  | some name => cases hparameter : pagingParameter o name <;> simp [hparameter, Except.map] <;> rfl

/-- A token that is no property is missed first... -/
theorem pagingOf_of_no_token {g : Pagination} (h : ¬ HasProperty o g.token) :
    pagingOf o g = .error (.noRequestProperty o.name g.token) := by
  rw [pagingOf, pagingParameter_of_not_hasProperty h]
  rfl

/-- ...and then a limit that is none. -/
theorem pagingOf_of_no_limit {g : Pagination} (htoken : HasProperty o g.token)
    (hlimit : g.limit = some name) (h : ¬ HasProperty o name) :
    pagingOf o g = .error (.noRequestProperty o.name name) := by
  obtain ⟨tokenParameter, htoken⟩ := exists_pagingParameter htoken
  rw [pagingOf_of_token htoken, hlimit]
  exact congrArg (Except.map _) (pagingParameter_of_not_hasProperty h)

/-- An operation that has its paging properties pages. -/
theorem exists_pagingOf {g : Pagination} (htoken : HasProperty o g.token)
    (hlimit : ∀ name, g.limit = some name → HasProperty o name) :
    ∃ y, pagingOf o g = .ok y := by
  obtain ⟨tokenParameter, htoken⟩ := exists_pagingParameter htoken
  rw [pagingOf_of_token htoken]
  cases hname : g.limit with
  | none => exact ⟨_, rfl⟩
  | some name =>
    obtain ⟨parameter, hparameter⟩ := exists_pagingParameter (hlimit name hname)
    exact ⟨_, congrArg (Except.map _) hparameter⟩

/-- What the paging of a cmdlet has from that of its operation. -/
structure Pages (o : Operation) (g : Pagination) (y : Paging) : Prop where
  token_eq : y.token = g.token
  tokenParameter : pagingParameter o g.token = .ok y.tokenParameter
  limit : ∀ name parameter, y.limit = some (name, parameter) →
    g.limit = some name ∧ pagingParameter o name = .ok parameter

/-- What a successful paging is made of. -/
theorem pages_of_pagingOf {g : Pagination} (h : pagingOf o g = .ok y) : Pages o g y := by
  cases htoken : pagingParameter o g.token with
  | error error =>
    rw [pagingOf, htoken] at h
    contradiction
  | ok tokenParameter =>
    rw [pagingOf_of_token htoken] at h
    cases hlimit : g.limit with
    | none =>
      rw [hlimit] at h
      cases h
      exact ⟨rfl, htoken, by simp⟩
    | some name =>
      rw [hlimit] at h
      cases hparameter : pagingParameter o name with
      | error error =>
        simp only [hparameter, Except.map] at h
        contradiction
      | ok parameter =>
        simp only [hparameter, Except.map] at h
        cases h
        refine ⟨rfl, htoken, fun name' parameter' heq => ?_⟩
        cases heq
        exact ⟨hlimit, hparameter⟩

/-! ## Outlines -/

/-- What an outline has from its operation. -/
structure Outlines (s : Service) (r : Registry) (o : Operation) (x : Outline) : Prop where
  service_eq : x.service = s
  operation_eq : x.operation = o
  emissions : List.Forall₂ (fun p e => emission s r o p = .ok e) o.properties x.emissions
  unpaged : o.pagination = none → x.paging = none
  paged : ∀ g, o.pagination = some g → ∃ y, x.paging = some y ∧ pagingOf o g = .ok y

/-- A cmdlet is paged when its operation is. -/
theorem Outlines.isSome_paging {x : Outline} (h : Outlines s r o x) :
    x.paging.isSome = o.pagination.isSome := by
  cases hg : o.pagination with
  | none =>
    rw [h.unpaged hg]
    rfl
  | some g =>
    obtain ⟨y, hy, -⟩ := h.paged g hg
    rw [hy]
    rfl

/-- When all properties become emissions, the paging decides. -/
theorem outlineOf_of_emissions {es : List Emission}
    (h : o.properties.mapM (emission s r o) = .ok es) :
    outlineOf s r o =
      match o.pagination with
      | none => .ok ⟨s, o, es, none⟩
      | some g => (pagingOf o g).map fun y => ⟨s, o, es, some y⟩ := by
  rw [outlineOf, h]
  cases hg : o.pagination with
  | none => rfl
  | some g => cases hy : pagingOf o g <;> simp [hy, Except.map] <;> rfl

/-- The first property that does not become an emission fails the operation. -/
theorem outlineOf_of_emission_error {before after : List Property} {p : Property}
    (hproperties : o.properties = before ++ p :: after)
    (hbefore : ∀ q ∈ before, ∃ e, emission s r o q = .ok e)
    (hp : emission s r o p = .error error) : outlineOf s r o = .error error := by
  rw [outlineOf, hproperties, mapM_eq_error hbefore hp]
  rfl

/-- Then the paging does. -/
theorem outlineOf_of_paging_error (hall : ∀ p ∈ o.properties, ∃ e, emission s r o p = .ok e)
    (hg : o.pagination = some g) (h : pagingOf o g = .error error) :
    outlineOf s r o = .error error := by
  obtain ⟨es, hes⟩ := exists_mapM_eq_ok hall
  rw [outlineOf_of_emissions hes, hg]
  exact congrArg (Except.map _) h

/-- Otherwise there is an outline. -/
theorem exists_outlineOf (hall : ∀ p ∈ o.properties, ∃ e, emission s r o p = .ok e)
    (hpaging : ∀ g, o.pagination = some g → ∃ y, pagingOf o g = .ok y) :
    ∃ x, outlineOf s r o = .ok x := by
  obtain ⟨es, hes⟩ := exists_mapM_eq_ok hall
  rw [outlineOf_of_emissions hes]
  cases hg : o.pagination with
  | none => exact ⟨_, rfl⟩
  | some g =>
    obtain ⟨y, hy⟩ := hpaging g hg
    exact ⟨_, congrArg (Except.map _) hy⟩

/-- What a successful outline is made of. -/
theorem outlines_of_outlineOf (h : outlineOf s r o = .ok x) : Outlines s r o x := by
  cases hes : o.properties.mapM (emission s r o) with
  | error error =>
    rw [outlineOf, hes] at h
    contradiction
  | ok es =>
    rw [outlineOf_of_emissions hes] at h
    have hforall := mapM_eq_ok_iff.mp hes
    cases hg : o.pagination with
    | none =>
      rw [hg] at h
      cases h
      exact ⟨rfl, rfl, hforall, fun _ => rfl, by simp [hg]⟩
    | some g =>
      rw [hg] at h
      cases hy : pagingOf o g with
      | error error =>
        simp only [hy, Except.map] at h
        contradiction
      | ok y =>
        simp only [hy, Except.map] at h
        cases h
        refine ⟨rfl, rfl, hforall, by simp [hg], fun g' hg' => ?_⟩
        obtain rfl := Option.some.inj (hg.symm.trans hg')
        exact ⟨y, rfl, hy⟩

/-- A cmdlet is that of an outline. -/
theorem generateOne_eq_ok_iff :
    generateOne s r o = .ok c ↔ ∃ x, outlineOf s r o = .ok x ∧ c = x.cmdlet := by
  unfold generateOne
  cases outlineOf s r o <;> simp [Except.map, eq_comm]

/-- A cmdlet fails as its outline does. -/
theorem generateOne_of_error (h : outlineOf s r o = .error error) :
    generateOne s r o = .error error := by
  rw [generateOne, h]
  rfl

/-! ## Properties of an outline -/

namespace Outlines

variable {x : Outline}

/-- Every property of the operation has its emission among the outline's. -/
theorem exists_emission (h : Outlines s r o x) (hp : p ∈ o.properties) :
    ∃ e ∈ x.emissions, emission s r o p = .ok e := by
  obtain ⟨e, he, hpe⟩ := exists_right_of_mem h.emissions hp
  exact ⟨e, he, hpe⟩

/-- Every emission of the outline is that of a property. -/
theorem exists_property (h : Outlines s r o x) (he : e ∈ x.emissions) :
    ∃ p ∈ o.properties, emission s r o p = .ok e := by
  obtain ⟨p, hp, hpe⟩ := exists_left_of_mem h.emissions he
  exact ⟨p, hp, hpe⟩

/-- What the emissions have in a row, said of their properties. -/
theorem flatMap_emissions {α : Type} {f : Emission → List α} {g : Property → List α}
    (h : Outlines s r o x) (hf : ∀ p e, emission s r o p = .ok e → f e = g p) :
    x.emissions.flatMap f = o.properties.flatMap g := by
  rw [List.flatMap_def, List.flatMap_def]
  refine congrArg List.flatten ?_
  rw [← List.forall₂_eq_eq_eq, List.forall₂_map_left_iff, List.forall₂_map_right_iff]
  exact h.emissions.flip.imp fun e p he => hf p e he

/-- The properties with a place in the context. -/
theorem mem_contextProperties_iff (h : Outlines s r o x) :
    p ∈ x.contextProperties ↔
      p ∈ o.properties ∧ emitterOf s r o p ≠ .accelerate ∧ emitterOf s r o p ≠ .dualstack := by
  rw [Outline.contextProperties, List.mem_map]
  constructor
  · rintro ⟨e, he, rfl⟩
    obtain ⟨he, hcontext⟩ := List.mem_filter.mp he
    obtain ⟨p, hp, hemission⟩ := h.exists_property he
    obtain ⟨b, -, rfl⟩ := emission_eq_ok_iff.mp hemission
    exact ⟨hp, by simpa [Emission.inContext] using hcontext⟩
  · rintro ⟨hp, hcontext⟩
    obtain ⟨e, he, hemission⟩ := h.exists_emission hp
    obtain ⟨b, -, rfl⟩ := emission_eq_ok_iff.mp hemission
    exact ⟨_, List.mem_filter.mpr ⟨he, by simpa [Emission.inContext] using hcontext⟩, rfl⟩

/-- Properties of one name are handled by one emitter, so none of them has a place in the context
unless all have. -/
theorem not_mem_contextNames (h : Outlines s r o x)
    (hp : emitterOf s r o p = .accelerate ∨ emitterOf s r o p = .dualstack) :
    p.name ∉ x.contextProperties.map (·.name) := by
  intro hmem
  obtain ⟨q, hq, hname⟩ := List.mem_map.mp hmem
  have hcontext := (h.mem_contextProperties_iff.mp hq).2
  rw [emitterOf, hname, ← emitterOf] at hcontext
  exact hp.elim hcontext.1 hcontext.2

end Outlines

/-! ## The properties of a paging -/

/-- A paging parameter belongs to a property of the operation. -/
theorem exists_of_pagingParameter {name : String} (h : pagingParameter o name = .ok parameter) :
    ∃ p ∈ o.properties, p.name = name ∧ parameter = parameterName p (o.customization? p.name) := by
  obtain ⟨p, hp, hparameter⟩ := pagingParameter_eq_ok_iff.mp h
  exact ⟨p, List.mem_of_find?_eq_some hp, by simpa using List.find?_some hp, hparameter⟩

/-- The properties that the paging takes by their names. -/
def pagingNames (o : Operation) : List String :=
  o.pagination.toList.flatMap fun g => g.token :: g.limit.toList

/-- Where a paging has its names from. -/
theorem Outlines.paging_cases {x : Outline} (h : Outlines s r o x) (hy : x.paging = some y) :
    (∃ p ∈ o.properties, p.name ∈ pagingNames o ∧ p.name = y.token ∧
      y.tokenParameter = parameterName p (o.customization? p.name)) ∧
    ∀ name parameter, y.limit = some (name, parameter) →
      ∃ p ∈ o.properties, p.name ∈ pagingNames o ∧
        parameter = parameterName p (o.customization? p.name) := by
  cases hg : o.pagination with
  | none =>
    rw [h.unpaged hg] at hy
    contradiction
  | some g =>
    obtain ⟨y', hy', hpaging⟩ := h.paged g hg
    obtain rfl := Option.some.inj (hy.symm.trans hy')
    have hpages := pages_of_pagingOf hpaging
    constructor
    · obtain ⟨p, hp, hname, hparameter⟩ := exists_of_pagingParameter hpages.tokenParameter
      exact ⟨p, hp, by simp [pagingNames, hg, hname], hname.trans hpages.token_eq.symm, hparameter⟩
    · intro name parameter hlimit
      obtain ⟨hname, hparameter⟩ := hpages.limit name parameter hlimit
      obtain ⟨p, hp, rfl, heq⟩ := exists_of_pagingParameter hparameter
      exact ⟨p, hp, by simp [pagingNames, hg, hname], heq⟩

/-! ## A store -/

/-- A store with one operation and no types of its own. -/
def storeOf (o : Operation) : Service where
  id := "S3"
  scope := "Amazon.S3"
  clientInterface := "IAmazonS3"
  nounPrefix? := none
  sdkVersion := "3.7.0"
  enums := []
  types := []
  operations := [o]

end CmdletForge.Cmdlet
