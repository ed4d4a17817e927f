import CmdletForge.Invocation.Confirmation
import CmdletForge.Proofs.Lists.Passes

/-!
# CmdletForge.Proofs.Confirmation.Summaries

The text of a confirmation, and what it is made of.

1. Only the first name counts when there is no other, or when one of the names has a sequence
   (`FirstCounts`).  The `items` of a text are what is shown in it: then those of the first name,
   and otherwise the scalars of all names in order.
2. A text is put together from the texts of its items (`text?_eq`).  This equation is all that is
   known of `text?` from here on: which names are looked at decides what the items are, and whether
   the items can be shown decides whether there is a text.
3. `Tells` and `joined` say what the two kinds of texts are, and `summaryLaw` says that they are.
-/

namespace CmdletForge.Confirmation

/-! ## What is shown -/

/-- The value that is bound to a name is a sequence. -/
def HasSequence (bound : Bound) (name : String) : Prop :=
  ∃ elements, bound name = some (.sequence elements)

theorem any_isSequence_iff {bound : Bound} {name : String} :
    (bound name).any Value.isSequence = true ↔ HasSequence bound name := by
  unfold HasSequence
  cases h : bound name with
  | none => simp
  | some v => cases v <;> simp [Value.isSequence]

instance : Decidable (HasSequence bound name) := decidable_of_iff _ any_isSequence_iff

/-- Only the first of the names counts: there is no other, or one of them has a sequence. -/
def FirstCounts (names : List String) (bound : Bound) : Prop :=
  names.length = 1 ∨ ∃ name ∈ names, HasSequence bound name

instance : Decidable (FirstCounts names bound) := inferInstanceAs (Decidable (_ ∨ _))

/-- Something that is shown: the parameter that it is shown of, and a value, or none for an
element that is null. -/
structure Item where
  parameter : String
  value : Option Shown
  deriving DecidableEq, Repr

/-- What is shown of the value of a name for itself. -/
def ownItems (bound : Bound) (name : String) : List Item :=
  match bound name with
  | none | some .null => []
  | some (.scalar value) => [⟨name, some value⟩]
  | some (.sequence elements) => (elements.take 10).map (⟨name, ·⟩)

/-- What is shown of the value of a name among others. -/
def scalarItem? (bound : Bound) (name : String) : Option Item :=
  match bound name with
  | some (.scalar value) => some ⟨name, some value⟩
  | _ => none

/-- What is shown of the values that are bound to names, in order. -/
def items (names : List String) (bound : Bound) : List Item :=
  if FirstCounts names bound then (names.take 1).flatMap (ownItems bound)
  else names.filterMap (scalarItem? bound)

/-! ## How a text is put together -/

namespace Item

def text (i : Item) : Except Failure String := elementText i.parameter i.value

/-- The item cannot be shown as a whole. -/
def Breaks (i : Item) : Prop := ∃ part, i.value = some (.broken part)

/-- An item has a text exactly when its value does not break. -/
theorem exists_text_iff {i : Item} : (∃ s, i.text = .ok s) ↔ ¬ i.Breaks := by
  rcases i with ⟨name, _ | whole | part⟩ <;> simp [text, elementText, Shown.text, Breaks]

theorem text_eq_error_iff {i : Item} : i.text = .error f ↔ i.Breaks ∧ f = ⟨i.parameter⟩ := by
  rcases i with ⟨name, _ | whole | part⟩ <;>
    simp [text, elementText, Shown.text, Breaks, eq_comm]

instance : Decidable (Breaks i) :=
  match i with
  | ⟨_, some (.broken part)⟩ => isTrue ⟨part, rfl⟩
  | ⟨_, none⟩ | ⟨_, some (.whole _)⟩ => isFalse (by simp [Breaks])

end Item

/-- How many elements a value has. -/
def elementCount : Option Value → Nat
  | some (.sequence elements) => elements.length
  | _ => 0

/-- The texts of the items of some names, put together. -/
def assembled (names : List String) (bound : Bound) (texts : List String) : String :=
  if FirstCounts names bound then
    ", ".intercalate texts ++ remainder (elementCount (names.head?.bind bound))
  else cut ("-".intercalate texts)

/-- The text of one name: its items and how many are left out. -/
theorem oneText_eq (bound : Bound) (name : String) :
    oneText name (bound name) =
      ((ownItems bound name).mapM Item.text).map fun texts =>
        ", ".intercalate texts ++ remainder (elementCount (bound name)) := by
  have hfew : remainder 0 = "" := rfl
  unfold ownItems
  cases bound name with
  | none => rfl
  | some v =>
    cases v with
    | null => rfl
    | scalar value =>
      cases value with
      | whole text =>
        have htext : [(⟨name, some (.whole text)⟩ : Item)].mapM Item.text = .ok [text] := rfl
        simp [oneText, Shown.text, htext, Except.map, elementCount, hfew]
      | broken part => rfl
    | sequence elements =>
      have htexts : ((elements.take 10).map fun value => (⟨name, value⟩ : Item)).mapM Item.text =
          (elements.take mostElements).mapM (elementText name) := List.mapM_map
      simp only [oneText, elementCount, htexts]
      cases (elements.take mostElements).mapM (elementText name) <;> rfl

/-- The texts of several names are those of their scalar items, in order. -/
theorem scalarTexts_eq (bound : Bound) (names : List String) :
    scalarTexts bound names = (names.filterMap (scalarItem? bound)).mapM Item.text := by
  induction names with
  | nil => rfl
  | cons name rest ih =>
    cases hvalue : bound name with
    | none => simpa [scalarTexts, scalarItem?, hvalue] using ih
    | some v =>
      cases v with
      | scalar value =>
        have hitem : scalarItem? bound name = some ⟨name, some value⟩ := by
          simp [scalarItem?, hvalue]
        rw [List.filterMap_cons_some hitem, List.mapM_cons, ← ih]
        simp only [scalarTexts, hvalue]
        rfl
      | _ => simpa [scalarTexts, scalarItem?, hvalue] using ih

/-- **A text is put together from its items.** -/
theorem text?_eq (names : List String) (bound : Bound) :
    text? names (some bound) =
      ((items names bound).mapM Item.text).map (assembled names bound) := by
  cases names with
  | nil => rfl
  | cons first others =>
    have hcount : (others.isEmpty = true ∨
        ((first :: others).any fun name => (bound name).any Value.isSequence) = true) ↔
          FirstCounts (first :: others) bound := by
      simp [FirstCounts, any_isSequence_iff]
    unfold text? items
    simp only [hcount]
    split
    next h =>
      have hassembled : assembled (first :: others) bound = fun texts =>
          ", ".intercalate texts ++ remainder (elementCount (bound first)) := by
        funext texts
        exact if_pos h
      rw [oneText_eq, hassembled]
      simp
    next h =>
      have hassembled : assembled (first :: others) bound = fun texts =>
          cut ("-".intercalate texts) := by
        funext texts
        exact if_neg h
      rw [scalarTexts_eq, hassembled]

/-! ## Cut texts -/

theorem cut_of_length_le {s : String} (h : s.length ≤ 100) : cut s = s := by
  have hle : ¬ mostCharacters < s.toList.length := by
    rw [String.length_toList]
    exact Nat.not_lt.mpr h
  simp [cut, hle]

theorem cut_of_lt_length {s : String} (h : 100 < s.length) :
    cut s = String.ofList (s.toList.take 100) ++ "..." := by
  have hlt : mostCharacters < s.toList.length := by
    rw [String.length_toList]
    exact h
  simp only [cut, if_pos hlt, String.ofList_append, String.ofList_toList]
  rfl

/-- The cut text has at most three characters more than a hundred. -/
theorem length_cut_le (s : String) : (cut s).length ≤ 103 := by
  by_cases h : s.length ≤ 100
  · rw [cut_of_length_le h]
    omega
  · have hdots : "...".length = 3 := by decide
    rw [cut_of_lt_length (by omega), String.length_append, String.length_ofList,
      List.length_take, hdots]
    omega

/-! ## What the texts are -/

/-- Everything that is shown can be shown as a whole. -/
def Prints (names : List String) (bound : Bound) : Prop := ∀ i ∈ items names bound, ¬ i.Breaks

instance : Decidable (Prints names bound) :=
  inferInstanceAs (Decidable (∀ i ∈ items names bound, ¬ i.Breaks))

/-- The text of an element. -/
inductive TellsElement : Option Shown → String → Prop where
  | null : TellsElement none "null"
  | whole (text : String) : TellsElement (some (.whole text)) text

/-- The text of a value for itself.  Of a sequence with more than ten elements the first ten are
told, and how many there are behind them. -/
inductive Tells : Option Value → String → Prop where
  | unbound : Tells none ""
  | null : Tells (some .null) ""
  | scalar (text : String) : Tells (some (.scalar (.whole text))) text
  | short {elements : List (Option Shown)} {texts : List String} (hlength : elements.length ≤ 10)
      (htexts : List.Forall₂ TellsElement elements texts) :
      Tells (some (.sequence elements)) (", ".intercalate texts)
  | long {front back : List (Option Shown)} {texts : List String} (hfront : front.length = 10)
      (hback : back ≠ []) (htexts : List.Forall₂ TellsElement front texts) :
      Tells (some (.sequence (front ++ back)))
        (", ".intercalate texts ++ " (plus " ++ toString back.length ++ " more)")

/-- The text of a scalar that is bound to a name. -/
def scalarText? (bound : Bound) (name : String) : Option String :=
  match bound name with
  | some (.scalar (.whole text)) => some text
  | _ => none

/-- The texts of the scalars that are bound to names, in order. -/
def joined (names : List String) (bound : Bound) : String :=
  "-".intercalate (names.filterMap (scalarText? bound))

theorem Item.text_eq_ok_iff {i : Item} : i.text = .ok s ↔ TellsElement i.value s := by
  rcases i with ⟨name, _ | text | part⟩
  · constructor
    · intro h
      obtain rfl := Except.ok.inj h
      exact .null
    · intro h
      cases h
      rfl
  · constructor
    · intro h
      obtain rfl := Except.ok.inj h
      exact .whole text
    · intro h
      cases h
      rfl
  · constructor <;> intro h <;> contradiction

/-- If all values print, each item has the text of its value. -/
theorem Prints.exists_texts (h : Prints names bound) :
    ∃ texts, (items names bound).mapM Item.text = .ok texts ∧
      List.Forall₂ (fun i s => TellsElement i.value s) (items names bound) texts := by
  have hall : ∀ i ∈ items names bound, ∃ s, i.text = .ok s :=
    fun i hi => Item.exists_text_iff.mpr (h i hi)
  obtain ⟨texts, htexts⟩ := exists_mapM_eq_ok hall
  refine ⟨texts, htexts, ?_⟩
  simpa only [Item.text_eq_ok_iff] using mapM_eq_ok_iff.mp htexts

/-- The texts of the items of a value are those that it tells for itself. -/
theorem tells_of_ownItems {bound : Bound} {name : String} {texts : List String}
    (h : List.Forall₂ (fun (i : Item) s => TellsElement i.value s) (ownItems bound name) texts) :
    Tells (bound name)
      (", ".intercalate texts ++ remainder (elementCount (bound name))) := by
  have hfew : remainder 0 = "" := rfl
  unfold ownItems at h
  cases hvalue : bound name with
  | none =>
    rw [hvalue, List.forall₂_nil_left_iff] at h
    simpa [h, elementCount, hfew] using Tells.unbound
  | some v =>
    rw [hvalue] at h
    cases v with
    | null =>
      rw [List.forall₂_nil_left_iff] at h
      simpa [h, elementCount, hfew] using Tells.null
    | scalar value =>
      obtain ⟨text, rest, htext, hrest, rfl⟩ := List.forall₂_cons_left_iff.mp h
      obtain rfl := List.forall₂_nil_left_iff.mp hrest
      cases htext
      simpa [elementCount, hfew] using Tells.scalar text
    | sequence elements =>
      have htexts : List.Forall₂ TellsElement (elements.take 10) texts :=
        (List.forall₂_map_left_iff (R := fun (i : Item) s => TellsElement i.value s)).mp h
      by_cases hlength : elements.length ≤ 10
      · have hremainder : remainder elements.length = "" := if_neg (Nat.not_lt.mpr hlength)
        rw [List.take_of_length_le hlength] at htexts
        simpa [elementCount, hremainder] using Tells.short hlength htexts
      · have hremainder : remainder elements.length =
            " (plus " ++ toString (elements.drop 10).length ++ " more)" := by
          rw [List.length_drop]
          exact if_pos (Nat.not_le.mp hlength)
        have hlong : Tells (some (.sequence (elements.take 10 ++ elements.drop 10))) _ :=
          .long (by rw [List.length_take]; omega) (by simp; omega) htexts
        rw [List.take_append_drop] at hlong
        simpa [elementCount, hremainder, String.append_assoc] using hlong

theorem scalarText?_eq_none (h : scalarItem? bound name = none) :
    scalarText? bound name = none := by
  unfold scalarItem? at h
  unfold scalarText?
  cases hvalue : bound name with
  | none => rfl
  | some v =>
    cases v with
    | scalar value => simp [hvalue] at h
    | _ => rfl

theorem scalarText?_eq_some (h : scalarItem? bound name = some i)
    (hs : TellsElement i.value s) : scalarText? bound name = some s := by
  unfold scalarItem? at h
  unfold scalarText?
  cases hvalue : bound name with
  | none => simp [hvalue] at h
  | some v =>
    cases v with
    | scalar value =>
      simp only [hvalue] at h
      obtain rfl := Option.some.inj h
      cases hs
      rfl
    | _ => simp [hvalue] at h

/-- The texts of the items of scalars are theirs. -/
theorem eq_scalarTexts {bound : Bound} {names texts : List String}
    (h : List.Forall₂ (fun (i : Item) s => TellsElement i.value s)
      (names.filterMap (scalarItem? bound)) texts) :
    texts = names.filterMap (scalarText? bound) := by
  induction names generalizing texts with
  | nil => exact List.forall₂_nil_left_iff.mp h
  | cons name rest ih =>
    cases hitem : scalarItem? bound name with
    | none =>
      rw [List.filterMap_cons_none hitem] at h
      rw [List.filterMap_cons_none (scalarText?_eq_none hitem), ih h]
    | some i =>
      rw [List.filterMap_cons_some hitem] at h
      obtain ⟨s, later, hs, hlater, rfl⟩ := List.forall₂_cons_left_iff.mp h
      rw [List.filterMap_cons_some (scalarText?_eq_some hitem hs), ih hlater]

/-! ## The law of summaries -/

/-- What is to be said of the text of a confirmation. -/
structure SummaryLaw (names : List String) (bound : Option Bound) (s : String) : Prop where
  /-- Without values, or without names, there is nothing to say. -/
  nothing : bound = none ∨ names = [] → s = ""
  /-- When only the first name counts, its value is told for itself. -/
  first : ∀ b first others, bound = some b → names = first :: others → FirstCounts names b →
    Tells (b first) s
  /-- Otherwise the scalars are joined, -/
  together : ∀ b, bound = some b → ¬ FirstCounts names b → (joined names b).length ≤ 100 →
    s = joined names b
  /-- and cut behind a hundred characters. -/
  cut : ∀ b, bound = some b → ¬ FirstCounts names b → 100 < (joined names b).length →
    s = String.ofList ((joined names b).toList.take 100) ++ "..."
  length_le : ∀ b, bound = some b → ¬ FirstCounts names b → s.length ≤ 103

/-- **The text of a confirmation.** -/
theorem summaryLaw {names : List String} {bound : Option Bound}
    (h : ∀ b, bound = some b → Prints names b) :
    ∃ s, text? names bound = .ok s ∧ text names bound = s ∧ SummaryLaw names bound s := by
  cases bound with
  | none =>
    have htext : text? names none = .ok "" := by cases names <;> rfl
    refine ⟨"", htext, by rw [text, htext], fun _ => rfl, ?_, ?_, ?_, ?_⟩ <;> intro b <;> simp
  | some b =>
    obtain ⟨texts, hok, htells⟩ := (h b rfl).exists_texts
    have htext : text? names (some b) = .ok (assembled names b texts) := by
      rw [text?_eq, hok]
      rfl
    have htogether (hfirst : ¬ FirstCounts names b) :
        assembled names b texts = Confirmation.cut (joined names b) := by
      rw [items, if_neg hfirst] at htells
      rw [assembled, if_neg hfirst, eq_scalarTexts htells, joined]
    refine ⟨assembled names b texts, htext, by rw [text, htext], ?nothing, ?first, ?together,
      ?cut, ?length⟩
    case nothing =>
      rintro (hnone | rfl)
      · contradiction
      · rw [htogether (by simp [FirstCounts])]
        rfl
    case first =>
      rintro b first others ⟨⟩ rfl hfirst
      have hitems : items (first :: others) b = ownItems b first := by
        simp [items, hfirst]
      rw [hitems] at htells
      rw [assembled, if_pos hfirst]
      exact tells_of_ownItems htells
    case together =>
      rintro b ⟨⟩ hfirst hlength
      rw [htogether hfirst, cut_of_length_le hlength]
    case cut =>
      rintro b ⟨⟩ hfirst hlength
      rw [htogether hfirst, cut_of_lt_length hlength]
    case length =>
      rintro b ⟨⟩ hfirst
      rw [htogether hfirst]
      exact length_cut_le _

/-- Twelve keys, of which the tenth is null and the eleventh cannot be shown, and a bucket that
cannot be shown. -/
def twelveKeys : Bound
  | "Key" => some (.sequence (List.replicate 9 (some (.whole "k")) ++
      [none, some (.broken "half"), some (.whole "z")]))
  | "BucketName" => some (.scalar (.broken "half"))
  | _ => none

theorem summaryLaw_twelveKeys :
    Prints ["Key", "BucketName"] twelveKeys ∧
      text ["Key", "BucketName"] (some twelveKeys) =
        "k, k, k, k, k, k, k, k, k, null (plus 2 more)" ∧
      SummaryLaw ["Key", "BucketName"] (some twelveKeys)
        "k, k, k, k, k, k, k, k, k, null (plus 2 more)" := by
  have hprints : Prints ["Key", "BucketName"] twelveKeys := by decide +kernel
  have htext : text ["Key", "BucketName"] (some twelveKeys) =
      "k, k, k, k, k, k, k, k, k, null (plus 2 more)" := by decide +kernel
  have hall : ∀ b, some twelveKeys = some b → Prints ["Key", "BucketName"] b := by
    rintro b ⟨⟩
    exact hprints
  obtain ⟨s, -, rfl, hlaw⟩ := summaryLaw hall
  rw [htext] at hlaw
  exact ⟨hprints, htext, hlaw⟩

end CmdletForge.Confirmation
