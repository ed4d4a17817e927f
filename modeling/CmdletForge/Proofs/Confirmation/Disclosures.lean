import CmdletForge.Proofs.Confirmation.Summaries

/-!
# CmdletForge.Proofs.Confirmation.Disclosures

What the text of a confirmation gives away.

1. There is no text exactly when an item breaks, and the failure names the first parameter of
   which an item does (`text?_eq_error_iff`).
2. A text is that of its items, of how many elements the sequence has that is shown, and of
   whether the first name counts alone (`text?_congr`).  Whatever else is bound may change, and
   need not even be printable.
3. In place of a text that fails stands a description.  It depends on which items break, and on
   nothing that was printed before or by them (`text_of_sameOutcomes`).
-/

namespace CmdletForge.Confirmation

variable {names : List String} {bound bound' : Bound} {name : String}

/-! ## Failures -/

/-- Something that is shown of the parameter `name` breaks. -/
def FailsAt (names : List String) (bound : Bound) (name : String) : Prop :=
  ∃ i ∈ items names bound, i.parameter = name ∧ i.Breaks

instance : Decidable (FailsAt names bound name) :=
  inferInstanceAs (Decidable (∃ i ∈ items names bound, i.parameter = name ∧ i.Breaks))

/-- The parameter `name` is the first of the names at which something breaks. -/
def FailsFirstAt (names : List String) (bound : Bound) (name : String) : Prop :=
  ∃ before after, names = before ++ name :: after ∧ FailsAt names bound name ∧
    ∀ earlier ∈ before, ¬ FailsAt names bound earlier

/-- There is at most one such parameter. -/
theorem FailsFirstAt.unique (h : FailsFirstAt names bound name)
    (h' : FailsFirstAt names bound name') : name = name' := by
  have hfind : ∀ {name}, FailsFirstAt names bound name →
      names.find? (fun name => FailsAt names bound name) = some name := by
    rintro name ⟨before, after, hnames, hfails, hbefore⟩
    rw [List.find?_eq_some_iff_append]
    exact ⟨by simpa using hfails, before, after, hnames, by simpa using hbefore⟩
  exact Option.some.inj ((hfind h).symm.trans (hfind h'))

theorem parameter_of_mem_ownItems {i : Item} (h : i ∈ ownItems bound name) :
    i.parameter = name := by
  unfold ownItems at h
  cases hvalue : bound name with
  | none => simp [hvalue] at h
  | some v =>
    cases v with
    | null => simp [hvalue] at h
    | scalar value =>
      simp only [hvalue, List.mem_singleton] at h
      rw [h]
    | sequence elements =>
      simp only [hvalue] at h
      obtain ⟨value, -, rfl⟩ := List.mem_map.mp h
      rfl

theorem parameter_of_scalarItem? {i : Item} (h : scalarItem? bound name = some i) :
    i.parameter = name := by
  unfold scalarItem? at h
  split at h
  · obtain rfl := Option.some.inj h
    rfl
  · contradiction

/-- The parameter of the first item that breaks is the first one of which an item breaks. -/
theorem failsFirstAt_of_items {before after : List Item} {i : Item}
    (hitems : items names bound = before ++ i :: after) (hbefore : ∀ j ∈ before, ¬ j.Breaks)
    (hi : i.Breaks) : FailsFirstAt names bound i.parameter := by
  have hfails : FailsAt names bound i.parameter := ⟨i, by simp [hitems], rfl, hi⟩
  by_cases hfirst : FirstCounts names bound
  · -- all items are those of the first name
    cases names with
    | nil => simp [FirstCounts] at hfirst
    | cons first others =>
      have hown : items (first :: others) bound = ownItems bound first := by
        simp [items, hfirst]
      have hmem : i ∈ ownItems bound first := by simp [← hown, hitems]
      exact ⟨[], others, by rw [parameter_of_mem_ownItems hmem]; rfl, hfails, by simp⟩
  · have hscalars : items names bound = names.filterMap (scalarItem? bound) := if_neg hfirst
    obtain ⟨front, back, hnames, hfront, hback⟩ :=
      List.filterMap_eq_append_iff.mp (hscalars.symm.trans hitems)
    obtain ⟨silent, name, rest, rfl, hsilent, hitem, -⟩ := List.filterMap_eq_cons_iff.mp hback
    have hname : i.parameter = name := parameter_of_scalarItem? hitem
    refine ⟨front ++ silent, rest, by rw [hnames, hname, List.append_assoc], hfails, ?_⟩
    rintro earlier hearlier ⟨j, hj, hparameter, hbreaks⟩
    rw [hscalars] at hj
    obtain ⟨name', -, hj'⟩ := List.mem_filterMap.mp hj
    have hsame : name' = earlier := (parameter_of_scalarItem? hj').symm.trans hparameter
    rw [hsame] at hj'
    rcases List.mem_append.mp hearlier with hmem | hmem
    · have hmem' : j ∈ before := by
        rw [← hfront]
        exact List.mem_filterMap.mpr ⟨earlier, hmem, hj'⟩
      exact hbefore j hmem' hbreaks
    · simp [hsilent earlier hmem] at hj'

/-- A summary is made exactly when every shown value prints. -/
theorem exists_text?_iff : (∃ s, text? names (some bound) = .ok s) ↔ Prints names bound := by
  constructor
  · rintro ⟨s, h⟩ i hi
    rw [text?_eq] at h
    cases hpass : (items names bound).mapM Item.text with
    | error f =>
      rw [hpass] at h
      contradiction
    | ok texts =>
      obtain ⟨s, -, hs⟩ := exists_right_of_mem (mapM_eq_ok_iff.mp hpass) hi
      exact Item.exists_text_iff.mp ⟨s, hs⟩
  · intro h
    obtain ⟨texts, hpass, -⟩ := h.exists_texts
    exact ⟨_, by rw [text?_eq, hpass]; rfl⟩

/-- **A text fails at the first parameter of which something that is shown breaks.** -/
theorem text?_eq_error_iff :
    text? names (some bound) = .error f ↔ FailsFirstAt names bound f.parameter := by
  have hfails : ∀ {f}, text? names (some bound) = .error f →
      FailsFirstAt names bound f.parameter := by
    intro f h
    rw [text?_eq] at h
    cases hpass : (items names bound).mapM Item.text with
    | ok texts =>
      rw [hpass] at h
      contradiction
    | error f' =>
      rw [hpass] at h
      obtain rfl := Except.error.inj h
      obtain ⟨before, i, after, hitems, hbefore, hi⟩ := mapM_eq_error_iff.mp hpass
      obtain ⟨hbreaks, rfl⟩ := Item.text_eq_error_iff.mp hi
      have hshown : ∀ j ∈ before, ¬ j.Breaks := fun j hj => Item.exists_text_iff.mp (hbefore j hj)
      exact failsFirstAt_of_items hitems hshown hbreaks
  constructor
  · exact hfails
  · intro h
    cases htext : text? names (some bound) with
    | ok s =>
      obtain ⟨-, -, -, ⟨i, hi, -, hbreaks⟩, -⟩ := h
      exact absurd hbreaks (exists_text?_iff.mp ⟨s, htext⟩ i hi)
    | error f' =>
      have hsame : f'.parameter = f.parameter := (hfails htext).unique h
      exact congrArg Except.error (congrArg Failure.mk hsame)

/-- A summary that fails names the parameter of the value that broke. -/
theorem text_of_error (h : text? names (some bound) = .error f) :
    text names (some bound) = "the values bound to the parameter " ++ f.parameter := by
  rw [text, h]
  rfl

/-! ## What is not printed -/

/-- The items are of one parameter, and both of them break or neither does. -/
def SameOutcome (i j : Item) : Prop := i.parameter = j.parameter ∧ (i.Breaks ↔ j.Breaks)

/-- Which parameter fails depends on the outcomes of the items only. -/
theorem failsAt_congr (h : List.Forall₂ SameOutcome (items names bound) (items names bound')) :
    FailsAt names bound name ↔ FailsAt names bound' name := by
  constructor
  · rintro ⟨i, hi, rfl, hbreaks⟩
    obtain ⟨j, hj, hparameter, hsame⟩ := exists_right_of_mem h hi
    exact ⟨j, hj, hparameter.symm, hsame.mp hbreaks⟩
  · rintro ⟨j, hj, rfl, hbreaks⟩
    obtain ⟨i, hi, hparameter, hsame⟩ := exists_left_of_mem h hj
    exact ⟨i, hi, hparameter, hsame.mpr hbreaks⟩

/-- A failure depends on which items break, and not on what was printed of any of them. -/
theorem text?_eq_error_congr
    (h : List.Forall₂ SameOutcome (items names bound) (items names bound')) :
    text? names (some bound) = .error f ↔ text? names (some bound') = .error f := by
  simp only [text?_eq_error_iff, FailsFirstAt, failsAt_congr h]

/-! ## What does not count -/

/-- **A text is told by what is shown**: its items, and the number of elements of a sequence that
is shown alone. -/
theorem text?_congr (hfirst : FirstCounts names bound ↔ FirstCounts names bound')
    (hitems : items names bound = items names bound')
    (hcount : elementCount (names.head?.bind bound) = elementCount (names.head?.bind bound')) :
    text? names (some bound) = text? names (some bound') := by
  have hassembled : assembled names bound = assembled names bound' := by
    funext texts
    simp [assembled, hfirst, hcount]
  rw [text?_eq, text?_eq, hitems, hassembled]

/-- Whether the first name counts depends on which names have sequences. -/
theorem firstCounts_congr (h : ∀ name ∈ names, HasSequence bound name ↔ HasSequence bound' name) :
    FirstCounts names bound ↔ FirstCounts names bound' := by
  have hsome : (∃ name ∈ names, HasSequence bound name) ↔
      ∃ name ∈ names, HasSequence bound' name :=
    exists_congr fun name => and_congr_right fun hname => h name hname
  rw [FirstCounts, FirstCounts, hsome]

/-- Two families of values agree on which of the names have sequences, on what is shown, and on
the length of a sequence that is shown. -/
structure Agree (names : List String) (bound bound' : Bound) : Prop where
  sequences : ∀ name ∈ names, HasSequence bound name ↔ HasSequence bound' name
  items_eq : items names bound = items names bound'
  length_eq : ∀ first others elements elements', names = first :: others →
    bound first = some (.sequence elements) → bound' first = some (.sequence elements') →
      elements.length = elements'.length

theorem elementCount_of_not_hasSequence (h : ¬ HasSequence bound name) :
    elementCount (bound name) = 0 := by
  cases hvalue : bound name with
  | none => rfl
  | some v =>
    cases v with
    | sequence elements => exact absurd ⟨elements, hvalue⟩ h
    | _ => rfl

/-- **Nothing else counts.** -/
theorem Agree.text?_eq (h : Agree names bound bound') :
    text? names (some bound) = text? names (some bound') := by
  refine text?_congr (firstCounts_congr h.sequences) h.items_eq ?_
  cases names with
  | nil => rfl
  | cons first others =>
    show elementCount (bound first) = elementCount (bound' first)
    have hsequence := h.sequences first List.mem_cons_self
    by_cases hfirst : HasSequence bound first
    · obtain ⟨elements, helements⟩ := hfirst
      obtain ⟨elements', helements'⟩ := hsequence.mp ⟨elements, helements⟩
      rw [helements, helements']
      exact h.length_eq first others elements elements' rfl helements helements'
    · rw [elementCount_of_not_hasSequence hfirst,
        elementCount_of_not_hasSequence (mt hsequence.mpr hfirst)]

/-- What is bound to names that are not listed does not count. -/
theorem text?_eq_of_listed (h : ∀ name ∈ names, bound name = bound' name) :
    text? names (some bound) = text? names (some bound') := by
  have hfirst : FirstCounts names bound ↔ FirstCounts names bound' :=
    firstCounts_congr fun name hname => by rw [HasSequence, HasSequence, h name hname]
  have hown : ∀ name ∈ names, ownItems bound name = ownItems bound' name := by
    intro name hname
    unfold ownItems
    rw [h name hname]
  have hscalar : ∀ name ∈ names, scalarItem? bound name = scalarItem? bound' name := by
    intro name hname
    unfold scalarItem?
    rw [h name hname]
  refine text?_congr hfirst ?_ ?_
  · simp only [items, hfirst, List.filterMap_congr hscalar]
    split
    · exact List.flatMap_congr fun name hname => hown name (List.mem_of_mem_take hname)
    · rfl
  · cases names with
    | nil => rfl
    | cons first others => exact congrArg elementCount (h first List.mem_cons_self)

/-- When the first name counts alone, only what is shown of it counts. -/
theorem text?_eq_of_first {first : String} {others : List String}
    (hbound : FirstCounts (first :: others) bound) (hbound' : FirstCounts (first :: others) bound')
    (hitems : ownItems bound first = ownItems bound' first)
    (hcount : elementCount (bound first) = elementCount (bound' first)) :
    text? (first :: others) (some bound) = text? (first :: others) (some bound') := by
  refine text?_congr (iff_of_true hbound hbound') ?_ hcount
  simp [items, hbound, hbound', hitems]

/-! ## The law of disclosures -/

/-- The texts are the same, or fail in the same way. -/
def SameText (names : List String) (bound bound' : Bound) : Prop :=
  text? names (some bound) = text? names (some bound') ∧
    text names (some bound) = text names (some bound')

theorem sameText_of_eq (h : text? names (some bound) = text? names (some bound')) :
    SameText names bound bound' := by
  refine ⟨h, ?_⟩
  rw [text, text, h]

/-- What is to be said of what the text of a confirmation gives away. -/
structure DisclosureLaw (names : List String) (bound : Bound) : Prop where
  /-- There is no text exactly when something that is shown breaks, -/
  fails_iff : (∃ f, text? names (some bound) = .error f) ↔ ∃ i ∈ items names bound, i.Breaks
  /-- the failure names the first parameter of which something does, -/
  first_iff : ∀ f, text? names (some bound) = .error f ↔ FailsFirstAt names bound f.parameter
  /-- and then this parameter is all that the text says. -/
  fallback : ∀ f, text? names (some bound) = .error f →
    text names (some bound) = "the values bound to the parameter " ++ f.parameter
  /-- Whatever the items print instead, as long as the same ones break, it stays the same. -/
  silent : ∀ bound' f, List.Forall₂ SameOutcome (items names bound) (items names bound') →
    text? names (some bound) = .error f → SameText names bound bound'
  /-- Nothing counts but what is shown: -/
  agree : ∀ bound', Agree names bound bound' → SameText names bound bound'
  /-- not what is bound to names that are not listed, -/
  unlisted : ∀ bound', (∀ name ∈ names, bound name = bound' name) → SameText names bound bound'
  /-- not what the elements behind the tenth are, nor, with a sequence in front, any other name, -/
  beyond : ∀ bound' first others front back back', names = first :: others →
    bound first = some (.sequence (front ++ back)) →
    bound' first = some (.sequence (front ++ back')) → 10 ≤ front.length →
    back.length = back'.length → SameText names bound bound'
  /-- and none of the other names, when only the first one counts. -/
  others : ∀ bound' first others, names = first :: others → FirstCounts names bound →
    FirstCounts names bound' → bound first = bound' first → SameText names bound bound'

/-- **What the text of a confirmation gives away.** -/
theorem disclosureLaw (names : List String) (bound : Bound) : DisclosureLaw names bound where
  fails_iff := by
    have hbreaks : (∃ i ∈ items names bound, i.Breaks) ↔ ¬ Prints names bound := by
      simp [Prints]
    rw [hbreaks, ← exists_text?_iff]
    cases text? names (some bound) <;> simp
  first_iff _ := text?_eq_error_iff
  fallback _ := text_of_error
  silent bound' f h hf := by
    refine sameText_of_eq ?_
    rw [hf, (text?_eq_error_congr h).mp hf]
  agree _ h := sameText_of_eq h.text?_eq
  unlisted _ h := sameText_of_eq (text?_eq_of_listed h)
  beyond := by
    rintro bound' first others front back back' rfl hfirst hfirst' hfront hlength
    have hcounts {b : Bound} {elements : List (Option Shown)}
        (h : b first = some (.sequence elements)) : FirstCounts (first :: others) b :=
      .inr ⟨first, List.mem_cons_self, elements, h⟩
    refine sameText_of_eq (text?_eq_of_first (hcounts hfirst) (hcounts hfirst') ?_ ?_)
    · simp only [ownItems, hfirst, hfirst', List.take_append_of_le_length hfront]
    · simp [elementCount, hfirst, hfirst', hlength]
  others := by
    rintro bound' first others rfl hbound hbound' hfirst
    refine sameText_of_eq (text?_eq_of_first hbound hbound' ?_ (congrArg elementCount hfirst))
    unfold ownItems
    rw [hfirst]

end CmdletForge.Confirmation
