import Mathlib.Data.List.Induction
import CmdletForge.Display.Column

/-!
# CmdletForge.Proofs.Display.Overlays

Columns laid over one another, as an algebra.

1. Apart from the sensitive mark, a column is made of fields that are set or not, each with a
   value of its own that stands for unset.  Of two values of a field the upper one counts when it
   is set (`Field.overlay`), and columns are laid over one another field by field (`get_merge`).  So
   a law of `Field.overlay` is a law of columns (`Column.ext_fields`).
2. A field of many columns, laid over one another in turn, is that of the last one that sets it
   (`lastSet_foldl_merge`).
-/

namespace CmdletForge.Display

/-! ## Fields -/

/-- The fields of a column that are set or not. -/
inductive Field where
  | label
  | width
  | alignment
  | order
  | script
  | property
  deriving DecidableEq, Repr

namespace Field

/-- What a field holds. -/
abbrev Value : Field → Type
  | .label | .script | .property => Option String
  | .width => Nat
  | .alignment => Alignment
  | .order => Int

/-- The value of a field that is not set. -/
def unset : (f : Field) → f.Value
  | .label | .script | .property => none
  | .width => (0 : Nat)
  | .alignment => Alignment.unset
  | .order => (0 : Int)

/-- What a column holds in a field. -/
def get : (f : Field) → Column → f.Value
  | .label, c => c.label
  | .width, c => c.width
  | .alignment, c => c.alignment
  | .order, c => c.order
  | .script, c => c.script
  | .property, c => c.property

/-- Whether a column sets a field. -/
def IsSet (f : Field) (c : Column) : Prop := f.get c ≠ f.unset

instance : (f : Field) → DecidableEq f.Value
  | .label | .script | .property => inferInstanceAs (DecidableEq (Option String))
  | .width => inferInstanceAs (DecidableEq Nat)
  | .alignment => inferInstanceAs (DecidableEq Alignment)
  | .order => inferInstanceAs (DecidableEq Int)

instance : Decidable (IsSet f c) := inferInstanceAs (Decidable (_ ≠ _))

/-- Two values of a field, one over the other. -/
def overlay (f : Field) (lower upper : f.Value) : f.Value :=
  if upper = f.unset then lower else upper

section
variable (f : Field) (a b c : f.Value)

@[simp] theorem overlay_unset : f.overlay a f.unset = a := if_pos rfl

@[simp] theorem unset_overlay : f.overlay f.unset a = a := by
  by_cases h : a = f.unset
  · rw [h, overlay_unset]
  · exact if_neg h

@[simp] theorem overlay_self : f.overlay a a = a := ite_self a

/-- Values of a field can be laid over one another in any grouping. -/
theorem overlay_assoc : f.overlay (f.overlay a b) c = f.overlay a (f.overlay b c) := by
  by_cases hc : c = f.unset
  · simp [hc]
  · simp [overlay, hc]

/-- A value that is put back on top covers what was put over it. -/
theorem overlay_overlay_self : f.overlay (f.overlay a b) a = f.overlay b a := by
  by_cases ha : a = f.unset
  · simp [ha]
  · simp [overlay, ha]

end

@[simp] theorem get_blank (f : Field) : f.get .blank = f.unset := by
  cases f <;> rfl

/-- **Columns are laid over one another field by field.** -/
@[simp] theorem get_merge (f : Field) (a b : Column) :
    f.get (a.merge b) = f.overlay (f.get a) (f.get b) := by
  -- a text that is there is taken by `<|>`, and any other value by asking whether it is set
  have htext (x y : Option String) : (y <|> x) = if y = none then x else y := by
    cases y <;> simp
  cases f with
  | label => exact htext a.label b.label
  | script => exact htext a.script b.script
  | property => exact htext a.property b.property
  | width => exact ite_not ..
  | alignment => exact ite_not ..
  | order => exact ite_not ..

/-- A field that is set in the later column is taken from it. -/
theorem get_merge_of_isSet (h : IsSet f b) (a : Column) : f.get (a.merge b) = f.get b := by
  rw [get_merge, overlay, if_neg h]

/-- A field that is not set in the later column stays. -/
theorem get_merge_of_not_isSet (h : ¬ IsSet f b) (a : Column) : f.get (a.merge b) = f.get a := by
  rw [get_merge, overlay, if_pos (not_not.mp h)]

end Field

/-! ## Two columns -/

namespace Column

/-- A column is known by its fields and its mark. -/
theorem ext_fields (hfields : ∀ f : Field, f.get a = f.get b)
    (hsensitive : a.sensitive = b.sensitive) : a = b := by
  obtain ⟨labelA, widthA, alignmentA, orderA, sensitiveA, scriptA, propertyA⟩ := a
  obtain ⟨labelB, widthB, alignmentB, orderB, sensitiveB, scriptB, propertyB⟩ := b
  have hlabel : labelA = labelB := hfields .label
  have hwidth : widthA = widthB := hfields .width
  have halignment : alignmentA = alignmentB := hfields .alignment
  have horder : orderA = orderB := hfields .order
  have hscript : scriptA = scriptB := hfields .script
  have hproperty : propertyA = propertyB := hfields .property
  simp_all

@[simp] theorem sensitive_merge (a b : Column) :
    (a.merge b).sensitive = (a.sensitive || b.sensitive) := rfl

@[simp] theorem sensitive_blank : blank.sensitive = false := rfl

section
variable (a b c : Column)

/-- Columns can be merged in any grouping. -/
theorem merge_assoc : (a.merge b).merge c = a.merge (b.merge c) :=
  ext_fields (by simp [Field.overlay_assoc]) (by simp [Bool.or_assoc])

@[simp] theorem merge_blank : a.merge blank = a := ext_fields (by simp) (by simp)

@[simp] theorem blank_merge : blank.merge a = a := ext_fields (by simp) (by simp)

@[simp] theorem merge_self : a.merge a = a := ext_fields (by simp) (by simp)

/-- What was laid over a column before adds nothing. -/
theorem merge_merge_self : (a.merge b).merge b = a.merge b := by
  rw [merge_assoc, merge_self]

/-- A column that is laid over what covers it leaves only what it does not set itself. -/
theorem merge_merge_back : (a.merge b).merge a = b.merge a := by
  apply ext_fields
  · simp [Field.overlay_overlay_self]
  · simp only [sensitive_merge]
    cases a.sensitive <;> simp

end

instance : Std.Associative merge := ⟨merge_assoc⟩

end Column

/-! ## Many columns -/

/-- The value that the last of some columns gives to a field, or the column under them when none
of them sets it. -/
def LastSet (f : Field) (start : Column) (cs : List Column) (value : f.Value) : Prop :=
  (∃ before c after, cs = before ++ c :: after ∧ f.IsSet c ∧ (∀ d ∈ after, ¬ f.IsSet d) ∧
    value = f.get c) ∨
    (∀ d ∈ cs, ¬ f.IsSet d) ∧ value = f.get start

/-- One more column decides when it sets the field... -/
theorem lastSet_append_of_isSet (h : Field.IsSet f c) (start : Column) (cs : List Column) :
    LastSet f start (cs ++ [c]) (f.get c) :=
  .inl ⟨cs, c, [], rfl, h, by simp, rfl⟩

/-- ...and else leaves it to those below. -/
theorem LastSet.append_of_not_isSet (hlast : LastSet f start cs value) (h : ¬ Field.IsSet f c) :
    LastSet f start (cs ++ [c]) value := by
  rcases hlast with ⟨before, d, after, rfl, hd, hafter, hvalue⟩ | ⟨hnone, hvalue⟩
  · refine .inl ⟨before, d, after ++ [c], by simp, hd, fun e he => ?_, hvalue⟩
    rcases List.mem_append.mp he with he | he
    · exact hafter e he
    · rwa [List.mem_singleton.mp he]
  · refine .inr ⟨fun e he => ?_, hvalue⟩
    rcases List.mem_append.mp he with he | he
    · exact hnone e he
    · rwa [List.mem_singleton.mp he]

/-- **The last column that sets a field decides it.** -/
theorem lastSet_foldl_merge (f : Field) (start : Column) (cs : List Column) :
    LastSet f start cs (f.get (cs.foldl .merge start)) := by
  induction cs using List.reverseRecOn with
  | nil => exact .inr ⟨by simp, rfl⟩
  | append_singleton cs c ih =>
    rw [List.foldl_append, List.foldl_cons, List.foldl_nil]
    by_cases h : f.IsSet c
    · rw [Field.get_merge_of_isSet h]
      exact lastSet_append_of_isSet h start cs
    · rw [Field.get_merge_of_not_isSet h]
      exact ih.append_of_not_isSet h

/-- Columns laid over one another are sensitive when one of them is. -/
theorem sensitive_foldl_merge (start : Column) (cs : List Column) :
    (cs.foldl .merge start).sensitive = (start.sensitive || cs.any (·.sensitive)) := by
  induction cs generalizing start with
  | nil => simp
  | cons c cs ih => simp [ih, Bool.or_assoc]

/-- Columns may be laid over one another first, and then over the column under them. -/
theorem foldl_merge_eq (start : Column) (cs : List Column) :
    cs.foldl .merge start = start.merge (cs.foldl .merge .blank) := by
  calc cs.foldl .merge start
    _ = cs.foldl .merge (start.merge .blank) := by rw [Column.merge_blank]
    _ = start.merge (cs.foldl .merge .blank) := List.foldl_assoc

/-- What is to be said of laying columns over one another. -/
structure OverlayLaw : Prop where
  /-- It does not matter which two of three columns are taken together first. -/
  assoc : ∀ a b c : Column, (a.merge b).merge c = a.merge (b.merge c)
  /-- The column without a set field neither changes nor is seen. -/
  blank : ∀ a : Column, a.merge .blank = a ∧ Column.blank.merge a = a
  /-- A column that is laid over once more adds nothing. -/
  again : ∀ a b : Column, a.merge a = a ∧ (a.merge b).merge b = a.merge b
  /-- A column that comes again on top leaves what it would leave of the one between. -/
  back : ∀ a b : Column, (a.merge b).merge a = b.merge a
  /-- Any number of columns may be taken together first. -/
  together : ∀ (start : Column) (cs : List Column),
    cs.foldl .merge start = start.merge (cs.foldl .merge .blank)
  /-- The last column that sets a field decides it, and the first column when none does. -/
  fields : ∀ (f : Field) (start : Column) (cs : List Column),
    LastSet f start cs (f.get (cs.foldl .merge start))
  /-- The outcome is sensitive when any of them is. -/
  sensitive : ∀ (start : Column) (cs : List Column),
    (cs.foldl .merge start).sensitive = true ↔ ∃ c ∈ start :: cs, c.sensitive = true

/-- **Columns laid over one another are a monoid in which the last set value wins.** -/
theorem overlayLaw : OverlayLaw where
  assoc := Column.merge_assoc
  blank a := ⟨a.merge_blank, a.blank_merge⟩
  again a b := ⟨a.merge_self, a.merge_merge_self b⟩
  back := Column.merge_merge_back
  together := foldl_merge_eq
  fields := lastSet_foldl_merge
  sensitive start cs := by
    rw [sensitive_foldl_merge]
    simp

-- the label of the second column stands although the third has none, and its mark stays
example :
    [{ Column.blank with label := some "Key", sensitive := true }, .ofProperty "Secret"].foldl
      .merge { Column.blank with label := some "Name", width := 30 } =
    { Column.blank with
      label := some "Key", width := 30, sensitive := true, property := some "Secret" } := by
  decide

end CmdletForge.Display
