import CmdletForge.Cmdlet.Declaration
import CmdletForge.Proofs.Lists.Positions

/-!
# CmdletForge.Proofs.Cmdlet.Aliases

The aliases of a parameter.

1. They are the name of the property, when the parameter has another one, and what the
   customization lists, each once and where it first stands (`parameterAliases_eq`).
2. No parameter may have its own name as an alias.  The name of the property is left out when it is
   that of the parameter, but what the customization lists is not looked at.  So the aliases are
   proper exactly when the customization does not list the name of the parameter, and without that
   name they are the one proper list in every case (`aliasLaw`).
-/

namespace CmdletForge.Cmdlet

/-! ## Where aliases come from -/

def listedAliases (c : Option Customization) : List String := (c.map (·.aliases)).getD []

section
variable (p : Property) (c : Option Customization)

/-- Whether the parameter of a property has another name than the property. -/
def IsRenamed : Prop := parameterName p c ≠ p.name

/-- The name of a property whose parameter has another one, and behind it the aliases that are
listed, with all repeats. -/
def aliasCandidates : List String :=
  (if parameterName p c = p.name then [] else [p.name]) ++ listedAliases c

variable {p c}

/-- The candidates are the property's own name, if the parameter is renamed, and the listed
aliases. -/
theorem mem_aliasCandidates :
    a ∈ aliasCandidates p c ↔ IsRenamed p c ∧ a = p.name ∨ a ∈ listedAliases c := by
  unfold aliasCandidates IsRenamed
  split <;> simp [*]

/-- The name of the parameter is a candidate only as one of the listed aliases. -/
theorem parameterName_mem_aliasCandidates :
    parameterName p c ∈ aliasCandidates p c ↔ parameterName p c ∈ listedAliases c := by
  rw [mem_aliasCandidates, or_iff_right]
  rintro ⟨hrenamed, hname⟩
  exact hrenamed hname

/-! ## Adding one after the other -/

/-- Adding texts to a list without repeats is erasing the repeats of all. -/
theorem addNew_eraseDups (seen xs : List String) :
    addNew seen.eraseDups xs = (seen ++ xs).eraseDups := by
  induction xs generalizing seen with
  | nil => rw [addNew, List.append_nil]
  | cons x rest ih =>
    have hone : (if seen.eraseDups.contains x then seen.eraseDups else seen.eraseDups ++ [x]) =
        (seen ++ [x]).eraseDups := by
      simp only [eraseDups_append_singleton, List.contains_iff_mem, List.mem_eraseDups]
    rw [addNew, hone, ih, List.append_assoc, List.singleton_append]

variable (p c) in
/-- **The aliases are the candidates**, each once and where it first stands. -/
theorem parameterAliases_eq : parameterAliases p c = (aliasCandidates p c).eraseDups := by
  have hstart : (if parameterName p c = p.name then [] else [p.name]) =
      (if parameterName p c = p.name then [] else [p.name]).eraseDups := by
    split <;> rfl
  rw [parameterAliases, hstart, addNew_eraseDups]
  rfl

/-- The list the code builds has the same members as the candidates. -/
theorem mem_parameterAliases :
    a ∈ parameterAliases p c ↔ IsRenamed p c ∧ a = p.name ∨ a ∈ listedAliases c := by
  rw [parameterAliases_eq, List.mem_eraseDups, mem_aliasCandidates]

/-- The parameter's own name gets into the list only when a customization lists it. -/
theorem parameterName_mem_parameterAliases :
    parameterName p c ∈ parameterAliases p c ↔ parameterName p c ∈ listedAliases c := by
  rw [parameterAliases_eq, List.mem_eraseDups, parameterName_mem_aliasCandidates]

/-! ## Proper aliases -/

/-- What the aliases of a parameter have to be. -/
structure AreProper (p : Property) (c : Option Customization) (aliases : List String) : Prop where
  /-- None stands there twice. -/
  nodup : aliases.Nodup
  /-- All that are listed are there, but for the name that the parameter has... -/
  listed : ∀ a ∈ listedAliases c, a ≠ parameterName p c → a ∈ aliases
  /-- ...and so is the name of the property when it is not that of the parameter... -/
  former : IsRenamed p c → p.name ∈ aliases
  /-- ...but nothing else. -/
  only : ∀ a ∈ aliases, IsRenamed p c ∧ a = p.name ∨ a ∈ listedAliases c
  /-- The name of the property stands first, and what is listed stands as it is listed. -/
  order : FirstOrder (aliasCandidates p c) aliases
  /-- A parameter is not aliased to its own name. -/
  other : parameterName p c ∉ aliases

/-- A proper list holds the candidates other than the parameter's name. -/
theorem AreProper.mem_iff (h : AreProper p c aliases) :
    a ∈ aliases ↔ a ∈ aliasCandidates p c ∧ a ≠ parameterName p c := by
  rw [mem_aliasCandidates]
  constructor
  · intro ha
    refine ⟨h.only a ha, ?_⟩
    rintro rfl
    exact h.other ha
  · rintro ⟨⟨hrenamed, rfl⟩ | hlisted, hother⟩
    · exact h.former hrenamed
    · exact h.listed a hlisted hother

/-- Without the parameter's name the code's list has the members of a proper one. -/
theorem mem_filter_parameterAliases :
    a ∈ (parameterAliases p c).filter (· ≠ parameterName p c) ↔
      a ∈ aliasCandidates p c ∧ a ≠ parameterName p c := by
  rw [List.mem_filter, decide_eq_true_iff, parameterAliases_eq, List.mem_eraseDups]

/-- Taking the parameter's name out keeps the order in which the candidates come first. -/
theorem firstOrder_filter_parameterAliases :
    FirstOrder (aliasCandidates p c) ((parameterAliases p c).filter (· ≠ parameterName p c)) := by
  rw [parameterAliases_eq]
  exact (firstOrder_eraseDups _).sublist List.filter_sublist

/-- Without the name of the parameter, the aliases are proper. -/
theorem areProper_filter :
    AreProper p c ((parameterAliases p c).filter (· ≠ parameterName p c)) where
  nodup := firstOrder_filter_parameterAliases.nodup
  listed := fun _ hlisted hother =>
    mem_filter_parameterAliases.mpr ⟨mem_aliasCandidates.mpr (.inr hlisted), hother⟩
  former := fun hrenamed =>
    mem_filter_parameterAliases.mpr ⟨mem_aliasCandidates.mpr (.inl ⟨hrenamed, rfl⟩), hrenamed.symm⟩
  only := fun _ ha => mem_aliasCandidates.mp (mem_filter_parameterAliases.mp ha).1
  order := firstOrder_filter_parameterAliases
  other := fun hown => (mem_filter_parameterAliases.mp hown).2 rfl

/-- **There is one proper list**: the aliases without the name of the parameter. -/
theorem areProper_iff :
    AreProper p c aliases ↔ aliases = (parameterAliases p c).filter (· ≠ parameterName p c) := by
  constructor
  · intro h
    refine h.order.eq firstOrder_filter_parameterAliases fun a => ?_
    rw [h.mem_iff, mem_filter_parameterAliases]
  · rintro rfl
    exact areProper_filter

/-- **The aliases are proper** exactly when the name of the parameter is not listed. -/
theorem areProper_parameterAliases_iff :
    AreProper p c (parameterAliases p c) ↔ parameterName p c ∉ listedAliases c := by
  rw [areProper_iff, eq_comm, List.filter_eq_self, ← parameterName_mem_parameterAliases]
  constructor
  · intro h hown
    simpa using h _ hown
  · intro h a ha
    rw [decide_eq_true_iff]
    rintro rfl
    exact h ha

end

/-! ## The parameters with aliases -/

/-- The parameter that goes by the name of a property goes by its aliases, too. -/
theorem Emitter.aliases_of_mem_declarations {e : Emitter} (he : e ≠ .storageClass)
    (h : d ∈ e.declarations s p c) :
    d.name = parameterName p c ∧ d.aliases = parameterAliases p c := by
  cases e with
  | storageClass => contradiction
  | default | accelerate | dualstack | httpVerb | protocol =>
    rw [declarations, List.mem_singleton] at h
    rw [h]
    exact ⟨rfl, rfl⟩

/-- The switches of storage classes have no aliases. -/
theorem Emitter.aliases_of_mem_storageClass
    (h : d ∈ Emitter.storageClass.declarations s p c) : d.aliases = [] := by
  obtain ⟨k, -, rfl⟩ := List.mem_map.mp h
  rfl

/-- A parameter that is declared is aliased to its own name exactly when that name is listed. -/
theorem Emitter.name_mem_aliases_iff {e : Emitter} (h : d ∈ e.declarations s p c) :
    d.name ∈ d.aliases ↔ e ≠ .storageClass ∧ d.name ∈ listedAliases c := by
  by_cases he : e = .storageClass
  · subst he
    simp [aliases_of_mem_storageClass h]
  · obtain ⟨hname, haliases⟩ := aliases_of_mem_declarations he h
    rw [hname, haliases, parameterName_mem_parameterAliases, and_iff_right he]

/-! ## The law of aliases -/

/-- What is to be said of the aliases of the parameter of a property. -/
structure AliasLaw (p : Property) (c : Option Customization) : Prop where
  /-- None stands there twice. -/
  nodup : (parameterAliases p c).Nodup
  /-- They are the name of a property whose parameter has another one, and what is listed... -/
  mem_iff : ∀ a, a ∈ parameterAliases p c ↔ IsRenamed p c ∧ a = p.name ∨ a ∈ listedAliases c
  /-- ...in this order. -/
  order : FirstOrder (aliasCandidates p c) (parameterAliases p c)
  /-- The name of the parameter is among them exactly when it is listed... -/
  own_iff : parameterName p c ∈ parameterAliases p c ↔ parameterName p c ∈ listedAliases c
  /-- ...and without it they are the one proper list. -/
  without_own : ∀ aliases, AreProper p c aliases ↔
    aliases = (parameterAliases p c).filter (· ≠ parameterName p c)
  /-- So they are proper exactly when the name of the parameter is not listed... -/
  proper_iff : AreProper p c (parameterAliases p c) ↔ parameterName p c ∉ listedAliases c
  /-- ...and, whatever emits a parameter, it is aliased to its own name only when that is listed;
  the switches of storage classes never are. -/
  declared : ∀ (e : Emitter) (s : Service), ∀ d ∈ e.declarations s p c,
    d.name ∈ d.aliases ↔ e ≠ .storageClass ∧ d.name ∈ listedAliases c

/-- **The law of aliases.** -/
theorem aliasLaw (p : Property) (c : Option Customization) : AliasLaw p c where
  nodup := by
    rw [parameterAliases_eq]
    exact nodup_eraseDups _
  mem_iff := fun _ => mem_parameterAliases
  order := by
    rw [parameterAliases_eq]
    exact firstOrder_eraseDups _
  own_iff := parameterName_mem_parameterAliases
  without_own := fun _ => areProper_iff
  proper_iff := areProper_parameterAliases_iff
  declared := fun _ _ _ hd => Emitter.name_mem_aliases_iff hd

/-- A parameter whose new name is listed, too, is aliased to its own name. -/
theorem not_areProper_renamed :
    parameterAliases ⟨"BucketName", "System.String", false, none, none⟩
        (some ⟨some "Bucket", ["Name", "Bucket"]⟩) = ["BucketName", "Name", "Bucket"] ∧
      ¬ AreProper ⟨"BucketName", "System.String", false, none, none⟩
        (some ⟨some "Bucket", ["Name", "Bucket"]⟩) ["BucketName", "Name", "Bucket"] :=
  ⟨by decide +kernel, fun h => h.other (by decide +kernel)⟩

end CmdletForge.Cmdlet
