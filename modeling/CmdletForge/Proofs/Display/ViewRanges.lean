import CmdletForge.Proofs.Display.Parsing
import CmdletForge.Proofs.Lists.Passes

/-!
# CmdletForge.Proofs.Display.ViewRanges

From which bytes of a text the views are taken.

1. The ranges of the views are decided by the pieces alone (`viewRanges`): they are those of the
   spans of views (`viewRanges_eq_map`).
2. So when pieces are read in another text than their own, all that changes is what stands in
   those ranges (`Capture.read_other`, `Capture.read_error`).
3. A view is never split in a text that begins with its pieces
   (`Capture.Marks.read_ne_splitCharacter`).
-/

namespace CmdletForge.Display.CustomDocument

open Xml (Event Piece Span Spans)

/-! ## Ranges of views -/

/-- The part of a text in a range of byte offsets. -/
def cutAt (text : List Char) (range : Nat × Nat) : Except Trouble String :=
  match Text.sliceBytes text range.1 range.2 with
  | some view => .ok (String.ofList view)
  | none => .error .splitCharacter

/-- A cut is the slice of the text between two offsets. -/
theorem cutAt_eq_ok_iff {text : List Char} {range : Nat × Nat} {view : String} :
    cutAt text range = .ok view ↔ Text.sliceBytes text range.1 range.2 = some view.toList := by
  unfold cutAt
  cases Text.sliceBytes text range.1 range.2 with
  | none => simp
  | some cs => simp [← String.toList_inj]

/-- A cut fails only inside a character. -/
theorem eq_of_cutAt {text : List Char} {range : Nat × Nat} (h : cutAt text range = .error e) :
    e = .splitCharacter := by
  unfold cutAt at h
  split at h
  · contradiction
  · exact (Except.error.inj h).symm

/-- The range of the view that a piece ends; `start` is where the open view begins. -/
def rangeAt (start : Option Nat) (p : Piece) : Option (Nat × Nat) :=
  match p.event with
  | .finish name => if name = viewElement then start.map (·, p.stop) else none
  | _ => none

/-- Where the view begins that is open behind a piece. -/
def startBehind (start : Option Nat) (p : Piece) : Option Nat :=
  match p.event with
  | .start content => if Xml.tagName content = viewElement then start <|> some p.start else start
  | .finish name => if name = viewElement then none else start
  | _ => start

/-- The ranges of the views that end in pieces. -/
def viewRanges : Option Nat → List Piece → List (Nat × Nat)
  | _, [] => []
  | start, p :: ps => (rangeAt start p).toList ++ viewRanges (startBehind start p) ps

section
variable {start : Option Nat} {p : Piece}

theorem rangeAt_of_not_closes (h : ¬ p.event.Closes viewElement) (start : Option Nat) :
    rangeAt start p = none := by
  cases hevent : p.event with
  | finish name =>
    rw [hevent] at h
    simp only [rangeAt, hevent]
    exact if_neg fun hname => h (congrArg Event.finish hname)
  | _ => simp only [rangeAt, hevent]

theorem rangeAt_none (p : Piece) : rangeAt none p = none := by
  unfold rangeAt
  split
  · exact ite_self none
  · rfl

theorem startBehind_of_not_opens (h : ¬ p.event.Opens viewElement) :
    startBehind none p = none := by
  cases hevent : p.event with
  | start content =>
    rw [hevent] at h
    simp only [startBehind, hevent]
    exact if_neg h
  | finish name =>
    simp only [startBehind, hevent]
    exact ite_self none
  | _ => simp only [startBehind, hevent]

theorem startBehind_of_not_closes (h : ¬ p.event.Closes viewElement) (offset : Nat) :
    startBehind (some offset) p = some offset := by
  cases hevent : p.event with
  | start content =>
    simp only [startBehind, hevent]
    exact ite_self _
  | finish name =>
    rw [hevent] at h
    simp only [startBehind, hevent]
    exact if_neg fun hname => h (congrArg Event.finish hname)
  | _ => simp only [startBehind, hevent]

theorem startBehind_of_opens (h : p.event.Opens viewElement) :
    startBehind none p = some p.start := by
  cases hevent : p.event with
  | start content =>
    rw [hevent] at h
    simp only [startBehind, hevent]
    exact if_pos h
  | _ =>
    rw [hevent] at h
    exact h.elim

end

/-- Between views nothing is cut. -/
theorem viewRanges_append_of_not_opens {skipped : List Piece}
    (h : ∀ p ∈ skipped, ¬ p.event.Opens viewElement) (ps : List Piece) :
    viewRanges none (skipped ++ ps) = viewRanges none ps := by
  induction skipped with
  | nil => rfl
  | cons p skipped ih =>
    rw [List.forall_mem_cons] at h
    rw [List.cons_append, viewRanges, rangeAt_none, startBehind_of_not_opens h.1, ih h.2]
    rfl

/-- Inside a view nothing is cut before its end. -/
theorem viewRanges_append_of_not_closes {inside : List Piece}
    (h : ∀ p ∈ inside, ¬ p.event.Closes viewElement) (offset : Nat) (ps : List Piece) :
    viewRanges (some offset) (inside ++ ps) = viewRanges (some offset) ps := by
  induction inside with
  | nil => rfl
  | cons p inside ih =>
    rw [List.forall_mem_cons] at h
    rw [List.cons_append, viewRanges, rangeAt_of_not_closes h.1, startBehind_of_not_closes h.1,
      ih h.2]
    rfl

/-- The bytes from the start tag of a span up to its end tag. -/
def rangeOf (s : Span) : Nat × Nat := (s.first.start, s.last.stop)

/-- **The ranges of the views are those of the spans.** -/
theorem viewRanges_eq_map {before ps : List Piece} {spans : List Span}
    (h : Spans viewElement before ps spans) : viewRanges none ps = spans.map rangeOf := by
  induction h with
  | @done before ps hps =>
    rw [← List.append_nil ps, viewRanges_append_of_not_opens hps]
    rfl
  | @span before skipped inside after first last spans hskipped hfirst hinside hlast hafter ih =>
    have hends : rangeAt (some first.start) last = some (first.start, last.stop) ∧
        startBehind (some first.start) last = none := by
      simp [rangeAt, startBehind, show last.event = .finish viewElement from hlast]
    rw [viewRanges_append_of_not_opens hskipped, viewRanges, rangeAt_none,
      startBehind_of_opens hfirst, viewRanges_append_of_not_closes hinside, viewRanges, hends.1,
      hends.2, ih]
    rfl

/-- What is cut out of a text in the ranges of spans are the slices of these. -/
theorem mapM_cutAt_rangeOf {text : List Char} {spans : List Span} {views : List String} :
    (spans.map rangeOf).mapM (cutAt text) = .ok views ↔
      List.Forall₂ (IsSlice text) spans views := by
  rw [mapM_eq_ok_iff, List.forall₂_map_left_iff]
  exact ⟨fun h => h.imp fun _ _ => cutAt_eq_ok_iff.mp,
    fun h => h.imp fun _ _ => cutAt_eq_ok_iff.mpr⟩

/-! ## One text read as another one -/

namespace Capture

variable {text : List Char} {k k₁ : Capture} {p : Piece} {ps : List Piece} {e : Trouble}

/-- What has been read, with other views. -/
def withViews (k : Capture) (views : List String) : Capture := { k with views := views }

@[simp] theorem viewStart_withViews (k : Capture) (views : List String) :
    (k.withViews views).viewStart = k.viewStart := rfl

theorem addName_withViews (k : Capture) (name : String) (views : List String) :
    (k.withViews views).addName name = (k.addName name).withViews views := by
  unfold addName withViews
  split <;> rfl

/-- **One piece, read in two texts**: they differ in the view that it ends. -/
theorem step_other (h : step text k p = .ok k₁) (text' : List Char) (views : List String) :
    k₁.viewStart = startBehind k.viewStart p ∧
      step text' (k.withViews views) p =
        ((rangeAt k.viewStart p).toList.mapM (cutAt text')).map fun more =>
          k₁.withViews (views ++ more) := by
  have hsame : ∀ k : Capture, Except.ok (k.withViews views) =
      ((none : Option (Nat × Nat)).toList.mapM (cutAt text')).map fun more =>
        k.withViews (views ++ more) := fun k =>
    congrArg (fun views => Except.ok (k.withViews views)) (List.append_nil views).symm
  obtain ⟨start, stop, event⟩ := p
  cases event with
  | start content =>
    obtain rfl := Except.ok.inj h
    simp only [startTag, startBehind, rangeAt, step]
    split
    next htype =>
      rw [htype, if_neg (Ne.symm viewElement_ne_typeElement)]
      exact ⟨rfl, hsame { k with inTypeName := true }⟩
    next =>
      split
      · exact ⟨rfl, hsame { k with viewStart := k.viewStart <|> some start }⟩
      · exact ⟨rfl, hsame k⟩
  | finish name =>
    simp only [step, endTag, startBehind, rangeAt, viewStart_withViews] at h ⊢
    split at h
    next htype =>
      obtain rfl := Except.ok.inj h
      rw [htype, if_pos rfl, if_neg (Ne.symm viewElement_ne_typeElement),
        if_neg (Ne.symm viewElement_ne_typeElement)]
      exact ⟨rfl, hsame { k with inTypeName := false }⟩
    next htype =>
      rw [if_neg htype]
      split at h
      next hview =>
        simp only [if_pos hview]
        cases hstart : k.viewStart with
        | none =>
          rw [hstart] at h
          obtain rfl := Except.ok.inj h
          refine ⟨hstart, ?_⟩
          exact hsame k
        | some a =>
          simp only [hstart] at h
          cases hslice : Text.sliceBytes text a stop with
          | none =>
            simp only [hslice] at h
            contradiction
          | some view =>
            simp only [hslice] at h
            obtain rfl := Except.ok.inj h
            refine ⟨rfl, ?_⟩
            simp only [withViews, Option.map_some, Option.toList_some, List.mapM_cons,
              List.mapM_nil, cutAt]
            cases Text.sliceBytes text' a stop <;> rfl
      next hview =>
        obtain rfl := Except.ok.inj h
        rw [if_neg hview, if_neg hview, if_neg hview]
        exact ⟨rfl, hsame k⟩
  | text raw =>
    rw [step_text] at h
    simp only [step_text, startBehind, rangeAt]
    split at h
    next hin =>
      have hin' : (k.withViews views).inTypeName = true := hin
      cases hraw : Xml.unescape raw with
      | error e =>
        rw [hraw] at h
        contradiction
      | ok cs =>
        rw [hraw] at h
        obtain rfl := Except.ok.inj h
        obtain ⟨names, hnames⟩ := addName_eq k (String.ofList (Text.trimChars cs))
        refine ⟨show (k.addName _).viewStart = k.viewStart by rw [hnames], ?_⟩
        rw [if_pos hin']
        exact (congrArg Except.ok (addName_withViews k _ views)).trans (hsame _)
    next hin =>
      have hin' : ¬ (k.withViews views).inTypeName = true := hin
      obtain rfl := Except.ok.inj h
      rw [if_neg hin']
      exact ⟨rfl, hsame k⟩
  | _ =>
    obtain rfl := Except.ok.inj h
    exact ⟨rfl, hsame k⟩

/-- **Pieces, read in two texts**: the views are taken from the same ranges. -/
theorem read_other (h : k.read text ps = .ok k₁) (text' : List Char) (views : List String) :
    (k.withViews views).read text' ps =
      ((viewRanges k.viewStart ps).mapM (cutAt text')).map fun more =>
        k₁.withViews (views ++ more) := by
  induction ps generalizing k views with
  | nil =>
    obtain rfl := Except.ok.inj h
    exact congrArg (fun views => Except.ok (k.withViews views)) (List.append_nil views).symm
  | cons p ps ih =>
    rw [← List.singleton_append] at h
    obtain ⟨k₂, hp, hps⟩ := exists_of_read_append h
    rw [read_singleton] at hp
    obtain ⟨hstart, hstep⟩ := step_other hp text' views
    rw [← List.singleton_append, read_append, read_singleton, hstep, List.singleton_append,
      viewRanges, List.mapM_append, ← hstart]
    cases (rangeAt k.viewStart p).toList.mapM (cutAt text') with
    | error e => rfl
    | ok more =>
      refine (ih hps (views ++ more)).trans ?_
      cases (viewRanges k₂.viewStart ps).mapM (cutAt text') with
      | error e => rfl
      | ok rest =>
        exact congrArg (fun views => Except.ok (k₁.withViews views))
          (List.append_assoc views more rest)

/-- **What is wrong with a piece**: a view that it ends has no slice, or its entities cannot be
read. -/
theorem error_cases_of_step (h : step text k p = .error e) :
    (e = .splitCharacter ∧ ∃ start, k.viewStart = some start ∧
      Text.sliceBytes text start p.stop = none) ∨
    (k.inTypeName = true ∧ ∃ raw fault, p.event = .text raw ∧ Xml.unescape raw = .error fault ∧
      e = .entity fault) := by
  obtain ⟨start, stop, event⟩ := p
  cases event with
  | finish name =>
    simp only [step, endTag] at h
    split at h
    · contradiction
    split at h
    · cases hopen : k.viewStart with
      | none =>
        rw [hopen] at h
        contradiction
      | some start =>
        simp only [hopen] at h
        split at h
        · contradiction
        next hslice => exact .inl ⟨(Except.error.inj h).symm, start, rfl, hslice⟩
    · contradiction
  | text raw =>
    rw [step_text] at h
    split at h
    next hin =>
      cases hraw : Xml.unescape raw with
      | error fault =>
        rw [hraw] at h
        exact .inr ⟨hin, raw, fault, rfl, hraw, (Except.error.inj h).symm⟩
      | ok cs =>
        rw [hraw] at h
        contradiction
    next => contradiction
  | _ => contradiction

/-- A trouble that is not about a slice is the same in every text. -/
theorem step_error (h : step text k p = .error e) (he : e ≠ .splitCharacter) (text' : List Char)
    (views : List String) : step text' (k.withViews views) p = .error e := by
  rcases error_cases_of_step h with ⟨rfl, -⟩ | ⟨hin, raw, fault, hevent, hraw, rfl⟩
  · contradiction
  · obtain ⟨start, stop, event⟩ := p
    obtain rfl := hevent
    have hin' : (k.withViews views).inTypeName = true := hin
    rw [step_text, if_pos hin', hraw]
    rfl

/-- An error of the pieces stays one over another text, unless a cut fails before. -/
theorem read_error (h : k.read text ps = .error e) (he : e ≠ .splitCharacter)
    (text' : List Char) (views : List String) :
    (k.withViews views).read text' ps = .error e ∨
      (k.withViews views).read text' ps = .error .splitCharacter := by
  induction ps generalizing k views with
  | nil => contradiction
  | cons p ps ih =>
    rw [← List.singleton_append, read_append, read_singleton] at h ⊢
    cases hp : step text k p with
    | error e' =>
      rw [hp] at h
      obtain rfl := Except.error.inj h
      rw [step_error hp he]
      exact .inl rfl
    | ok k₂ =>
      rw [hp] at h
      rw [(step_other hp text' views).2]
      cases hcut : (rangeAt k.viewStart p).toList.mapM (cutAt text') with
      | error e' =>
        obtain ⟨_, range, _, -, -, hrange⟩ := mapM_eq_error_iff.mp hcut
        exact .inr (congrArg Except.error (eq_of_cutAt hrange))
      | ok more => exact ih h (views ++ more)

/-! ## Views that are not split -/

variable {before : List Piece} {front : List Char}

/-- **No view is split** in a text that begins with the pieces. -/
theorem Marks.read_ne_splitCharacter (h : k.Marks before)
    (hcovers : Xml.Covers 0 (before ++ ps) front) (hfront : front <+: text) :
    k.read text ps ≠ .error .splitCharacter := by
  induction ps generalizing k before with
  | nil =>
    intro herror
    contradiction
  | cons p ps ih =>
    rw [← List.singleton_append, read_append, read_singleton]
    cases hp : Capture.step text k p with
    | error e =>
      rintro herror
      obtain rfl := Except.error.inj herror
      rcases error_cases_of_step hp with ⟨-, start, hopen, hnone⟩ | ⟨-, _, _, -, -, hfault⟩
      · -- the open view begins at a piece that was read
        obtain ⟨pieces, first, between, rfl, rfl, -⟩ := h start hopen
        rw [List.append_assoc, List.cons_append] at hcovers
        obtain ⟨_, _, _, hview, -⟩ := hcovers.exists_slice
        obtain ⟨back, rfl⟩ := hfront
        have hwithin := sliceBytes_within [] front back hview
        rw [Text.width_nil, Nat.zero_add, Nat.zero_add, List.nil_append, hnone] at hwithin
        contradiction
      · contradiction
    | ok k₂ =>
      have hsplit : before ++ p :: ps = before ++ [p] ++ ps := by simp
      exact ih (h.step hp) (hsplit ▸ hcovers)

end Capture

end CmdletForge.Display.CustomDocument
