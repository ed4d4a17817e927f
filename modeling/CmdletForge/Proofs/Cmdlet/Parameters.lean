import Mathlib.Data.List.Nodup
import Mathlib.Data.List.Pairwise
import CmdletForge.Proofs.Cmdlet.Places

/-!
# CmdletForge.Proofs.Cmdlet.Parameters

The names of the parameters of a cmdlet, and when they are different.

1. A property has a parameter of its own name, or the two switches of storage classes.  Paging
   and confirmation add a switch each, whatever the properties are called.
2. So properties with different names do not suffice.  The names differ exactly when no property
   is called like a switch that the cmdlet has, and no two properties have the switches of storage
   classes (`nodup_parameterNames_iff`).
-/

namespace CmdletForge.Cmdlet

open Source.Step (codeOf textAt)

/-! ## The names of a property -/

section
variable (s : Service) (r : Registry) (o : Operation)

/-- The names of the switches of storage classes. -/
def classSwitches : List String :=
  [StorageClass.standard.switch, StorageClass.reducedRedundancy.switch]

/-- The names that a property without a customization has parameters of. -/
def namesOf (p : Property) : List String :=
  if emitterOf s r o p = .storageClass then classSwitches else [p.name]

/-- The names of the switches that an operation of its kind has. -/
def switchNames : List String :=
  (if o.pagination.isSome then [Outline.onePageSwitch] else []) ++
    (if o.isMutating then [Outline.forceSwitch] else [])

variable {s r o}

/-- The storage class emitter declares its switches. -/
theorem namesOf_of_storageClass (h : emitterOf s r o p = .storageClass) :
    namesOf s r o p = classSwitches := if_pos h

/-- Every other emitter declares one parameter, named after the property. -/
theorem namesOf_of_ne (h : emitterOf s r o p ≠ .storageClass) : namesOf s r o p = [p.name] :=
  if_neg h

/-- Without a customization the declared names depend on the emitter and the property's name
only. -/
theorem names_declarations_eq_namesOf (h : o.customization? p.name = none) :
    ((emitterOf s r o p).declarations s p (o.customization? p.name)).map (·.name) =
      namesOf s r o p := by
  by_cases hclass : emitterOf s r o p = .storageClass
  · rw [namesOf_of_storageClass hclass, hclass]
    rfl
  · rw [namesOf_of_ne hclass, Emitter.names_declarations hclass, h]
    rfl

/-- The parameters of a cmdlet are those of its properties, in order. -/
theorem declared_parameters_of_outlines (h : Outlines s r o x) :
    (codeOf x.parameters).declared = o.properties.flatMap fun p =>
      ((emitterOf s r o p).declarations s p (o.customization? p.name)).map (·.name) := by
  rw [x.declared_parameters]
  refine h.flatMap_emissions fun p e he => ?_
  obtain ⟨b, -, rfl⟩ := emission_eq_ok_iff.mp he
  rfl

/-- **The names of all parameters**: those of the properties in order, and those of the switches. -/
theorem parameterNames_eq (h : Outlines s r o x)
    (hplain : ∀ p ∈ o.properties, o.customization? p.name = none) :
    x.parameterNames = o.properties.flatMap (namesOf s r o) ++ switchNames o := by
  have hproperties : (codeOf x.parameters).declared = o.properties.flatMap (namesOf s r o) := by
    rw [declared_parameters_of_outlines h]
    exact List.flatMap_congr fun p hp => names_declarations_eq_namesOf (hplain p hp)
  have hswitches : (codeOf x.switches).declared = switchNames o := by
    rw [x.declared_switches, h.operation_eq, h.isSome_paging]
    rfl
  rw [Outline.parameterNames, hproperties, hswitches]

/-! ## Names that differ -/

/-- No two parameters have one name, properties with different names provided. -/
structure NoClash (s : Service) (r : Registry) (o : Operation) : Prop where
  /-- At most one property has the switches of storage classes. -/
  one_class : ∀ p ∈ o.properties, ∀ q ∈ o.properties, emitterOf s r o p = .storageClass →
    emitterOf s r o q = .storageClass → p = q
  /-- No other is called like one of them then. -/
  classes : ∀ p ∈ o.properties, emitterOf s r o p = .storageClass →
    ∀ q ∈ o.properties, emitterOf s r o q ≠ .storageClass → q.name ∉ classSwitches
  /-- None is called like a switch that the operation has. -/
  switches : ∀ q ∈ o.properties, emitterOf s r o q ≠ .storageClass → q.name ∉ switchNames o

/-- Switches of storage classes are called like no other switch. -/
theorem not_mem_switchNames (h : name ∈ classSwitches) : name ∉ switchNames o := by
  revert name
  unfold switchNames
  split <;> split <;> decide

/-- When the names of several properties are distinct: the storage class is emitted at most once,
and no other property is named like one of its switches. -/
theorem nodup_namesOf_iff (hnames : (o.properties.map (·.name)).Nodup) :
    (o.properties.flatMap (namesOf s r o)).Nodup ↔
      (∀ p ∈ o.properties, ∀ q ∈ o.properties, emitterOf s r o p = .storageClass →
        emitterOf s r o q = .storageClass → p = q) ∧
      (∀ p ∈ o.properties, emitterOf s r o p = .storageClass →
        ∀ q ∈ o.properties, emitterOf s r o q ≠ .storageClass → q.name ∉ classSwitches) := by
  have hnodup : o.properties.Nodup := hnames.of_map _
  have hdiffer : ∀ p ∈ o.properties, ∀ q ∈ o.properties, p ≠ q → p.name ≠ q.name :=
    fun p hp q hq hne heq => hne (List.inj_on_of_nodup_map hnames hp hq heq)
  rw [List.nodup_flatMap]
  constructor
  · rintro ⟨-, hpairs⟩
    -- a name that two properties have parameters of makes them one
    have hshared : ∀ p ∈ o.properties, ∀ q ∈ o.properties, ∀ name,
        name ∈ namesOf s r o p → name ∈ namesOf s r o q → p = q := by
      intro p hp q hq name hpname hqname
      have : Std.Symm (Function.onFun List.Disjoint (namesOf s r o)) :=
        ⟨fun _ _ h _ hp hq => h hq hp⟩
      by_contra hne
      exact hpairs.forall hp hq hne hpname hqname
    constructor
    · intro p hp q hq hpclass hqclass
      refine hshared p hp q hq StorageClass.standard.switch ?_ ?_
      · rw [namesOf_of_storageClass hpclass]
        exact .head _
      · rw [namesOf_of_storageClass hqclass]
        exact .head _
    · intro p hp hpclass q hq hqclass hname
      have heq : p = q := hshared p hp q hq q.name (namesOf_of_storageClass hpclass ▸ hname)
        (namesOf_of_ne hqclass ▸ List.mem_singleton_self _)
      exact hqclass (heq ▸ hpclass)
  · rintro ⟨hone, hclasses⟩
    refine ⟨fun p hp => ?_, hnodup.pairwise_of_forall_ne fun p hp q hq hne => ?_⟩
    · by_cases hclass : emitterOf s r o p = .storageClass
      · rw [namesOf_of_storageClass hclass]
        decide
      · rw [namesOf_of_ne hclass]
        exact List.nodup_singleton _
    · change List.Disjoint (namesOf s r o p) (namesOf s r o q)
      by_cases hpclass : emitterOf s r o p = .storageClass
      · have hqclass : emitterOf s r o q ≠ .storageClass :=
          fun hqclass => hne (hone p hp q hq hpclass hqclass)
        rw [namesOf_of_storageClass hpclass, namesOf_of_ne hqclass, List.disjoint_singleton]
        exact hclasses p hp hpclass q hq hqclass
      · by_cases hqclass : emitterOf s r o q = .storageClass
        · rw [namesOf_of_storageClass hqclass, namesOf_of_ne hpclass, List.singleton_disjoint]
          exact hclasses q hq hqclass p hp hpclass
        · rw [namesOf_of_ne hpclass, namesOf_of_ne hqclass, List.singleton_disjoint,
            List.mem_singleton]
          exact hdiffer p hp q hq hne

/-- **When the names of all parameters differ.** -/
theorem nodup_parameterNames_iff (h : Outlines s r o x)
    (hplain : ∀ p ∈ o.properties, o.customization? p.name = none)
    (hnames : (o.properties.map (·.name)).Nodup) :
    x.parameterNames.Nodup ↔ NoClash s r o := by
  have hswitches : (switchNames o).Nodup := by
    unfold switchNames
    split <;> split <;> decide
  rw [parameterNames_eq h hplain, List.nodup_append', nodup_namesOf_iff hnames]
  constructor
  · rintro ⟨⟨hone, hclasses⟩, -, hdisjoint⟩
    refine ⟨hone, hclasses, fun q hq hqclass hname => hdisjoint ?_ hname⟩
    rw [List.mem_flatMap]
    exact ⟨q, hq, namesOf_of_ne hqclass ▸ List.mem_singleton_self _⟩
  · intro hclash
    refine ⟨⟨hclash.one_class, hclash.classes⟩, hswitches, fun name hname hswitch => ?_⟩
    obtain ⟨p, hp, hname⟩ := List.mem_flatMap.mp hname
    by_cases hclass : emitterOf s r o p = .storageClass
    · rw [namesOf_of_storageClass hclass] at hname
      exact not_mem_switchNames hname hswitch
    · rw [namesOf_of_ne hclass, List.mem_singleton] at hname
      exact hclash.switches p hp hclass (hname ▸ hswitch)

/-- What is to be said of the parameters of a cmdlet without customizations. -/
structure ParameterLaw (s : Service) (r : Registry) (o : Operation) (x : Outline) : Prop where
  /-- The cmdlet declares parameters and the members of its context, and nothing else. -/
  declared_eq : (codeOf x.steps).declared = x.parameterNames ++ x.contextProperties.map (·.name)
  /-- Every parameter has a region in the source. -/
  regions : ∀ name ∈ x.parameterNames, Declares x.source name
  /-- The parameters are those of the properties in order, and the switches. -/
  names_eq : x.parameterNames = o.properties.flatMap (namesOf s r o) ++ switchNames o
  /-- Their names differ when nothing is called like a switch, and then only. -/
  nodup_iff : x.parameterNames.Nodup ↔ NoClash s r o

/-- **A cmdlet declares each parameter once, unless a property is called like a switch** or two
properties have the switches of storage classes. -/
theorem parameterLaw (hc : generateOne s r o = .ok c) (hnames : (o.properties.map (·.name)).Nodup)
    (hplain : ∀ p ∈ o.properties, o.customization? p.name = none) :
    ∃ x, outlineOf s r o = .ok x ∧ c = x.cmdlet ∧ ParameterLaw s r o x := by
  obtain ⟨x, hx, hcmdlet⟩ := generateOne_eq_ok_iff.mp hc
  have houtlines := outlines_of_outlineOf hx
  refine ⟨x, hx, hcmdlet, ?_, fun _ => Outline.declares_of_mem_parameterNames,
    parameterNames_eq houtlines hplain, nodup_parameterNames_iff houtlines hplain hnames⟩
  rw [x.declared_steps, x.declared_contextClass]

end

/-- A removal that is asked about, with texts to say what is removed. -/
def removing (names : List String) : Operation where
  name := "DeleteObject"
  verb := "Remove"
  noun := "Object"
  requestType := "DeleteObjectRequest"
  properties := names.map fun name => ⟨name, "System.String", false, none, none⟩
  pagination := none
  confirmParameters := ["Key"]
  customizations := []

/-- A removal with parameters of different names. -/
def versioned : Operation := removing ["Key", "VersionId"]

/-- A removal with a property that is called like a switch. -/
def forced : Operation := removing ["Key", "Force"]

/-- The law at an operation whose parameters are all distinct. -/
theorem parameterLaw_versioned :
    (versioned.properties.map (·.name)).Nodup ∧
      (∀ p ∈ versioned.properties, versioned.customization? p.name = none) ∧
      ∃ c x, generateOne (storeOf versioned) .builtin versioned = .ok c ∧ c = x.cmdlet ∧
        ParameterLaw (storeOf versioned) .builtin versioned x := by
  have hnames : (versioned.properties.map (·.name)).Nodup := by decide
  have hplain : ∀ p ∈ versioned.properties, versioned.customization? p.name = none :=
    fun _ _ => rfl
  obtain ⟨c, hc⟩ : ∃ c, generateOne (storeOf versioned) .builtin versioned = .ok c := ⟨_, rfl⟩
  obtain ⟨x, -, hcmdlet, hlaw⟩ := parameterLaw hc hnames hplain
  exact ⟨hnames, hplain, c, x, hc, hcmdlet, hlaw⟩

/-- Properties with different names do not suffice: a property may be called like the switch to go
on without confirmation, and then two regions declare this name. -/
theorem not_nodup_parameterNames_forced :
    (forced.properties.map (·.name)).Nodup ∧
      (∀ p ∈ forced.properties, forced.customization? p.name = none) ∧
      ∃ x, generateOne (storeOf forced) .builtin forced = .ok x.cmdlet ∧
        outlineOf (storeOf forced) .builtin forced = .ok x ∧
        x.parameterNames = ["Key", "Force", "Force"] ∧ ¬ x.parameterNames.Nodup ∧
        Declares (textAt 2 x.parameters) "Force" ∧ Declares (textAt 2 x.switches) "Force" := by
  have hplain : ∀ p ∈ forced.properties, forced.customization? p.name = none := fun _ _ => rfl
  obtain ⟨x, hx⟩ : ∃ x, outlineOf (storeOf forced) .builtin forced = .ok x := ⟨_, rfl⟩
  have houtlines := outlines_of_outlineOf hx
  have hparameters : (codeOf x.parameters).declared = ["Key", "Force"] := by
    rw [declared_parameters_of_outlines houtlines]
    decide
  have hswitches : (codeOf x.switches).declared = ["Force"] := by
    rw [x.declared_switches, houtlines.isSome_paging, houtlines.operation_eq]
    rfl
  have hnames : x.parameterNames = ["Key", "Force", "Force"] := by
    rw [Outline.parameterNames, hparameters, hswitches]
    rfl
  refine ⟨by decide, hplain, x, generateOne_eq_ok_iff.mpr ⟨x, hx, rfl⟩, hx, hnames, ?_, ?_, ?_⟩
  · rw [hnames]
    decide
  · exact Outline.declares_of_mem_parameters (hparameters ▸ .tail _ (.head _))
  · exact Outline.declares_of_mem_switches (hswitches ▸ .head _)

end CmdletForge.Cmdlet
