import CmdletForge.Proofs.Display.ViewSpans

/-!
# CmdletForge.Proofs.Display.Parsing

Documents that can be parsed.

1. While a document is read, the offset of an open view is where a `View` start tag begins, and no
   `View` end tag stands behind it (`Capture.Marks`).  So there is a slice when the view ends.
2. A well-formed document without a byte order mark can be parsed exactly when the entities can be
   read where a type name is open (`exists_parse_iff`): no view stays open in it.
-/

namespace CmdletForge.Display.CustomDocument

open Xml (Event Piece Span)

/-! ## Open type names -/

/-- Whether a type name is open behind an event. -/
def inTypeBehind (inType : Bool) : Event → Bool
  | .start content => inType || Xml.tagName content == typeElement
  | .finish name => inType && name != typeElement
  | _ => inType

/-- Entities can be read in the runs of text where a type name is open; `inType` tells whether one
is open in front. -/
def TypesDecode (inType : Bool) : List Event → Prop
  | [] => True
  | e :: events => (inType = true → e.Decodes) ∧ TypesDecode (inTypeBehind inType e) events

section
variable {e : Event}

theorem inTypeBehind_of_opens (he : e.Opens typeElement) (inType : Bool) :
    inTypeBehind inType e = true := by
  cases e with
  | start content => simp [inTypeBehind, show Xml.tagName content = typeElement from he]
  | _ => exact he.elim

theorem inTypeBehind_of_closes (he : e.Closes typeElement) (inType : Bool) :
    inTypeBehind inType e = false := by
  rw [show e = .finish typeElement from he]
  simp [inTypeBehind]

/-- What is no tag of a type name leaves it open or closed. -/
theorem inTypeBehind_of_ne (hopens : ¬ e.Opens typeElement) (hcloses : ¬ e.Closes typeElement)
    (inType : Bool) : inTypeBehind inType e = inType := by
  cases e with
  | start content => simp [inTypeBehind, show Xml.tagName content ≠ typeElement from hopens]
  | finish name =>
    have hname : name ≠ typeElement := fun hname => hcloses (congrArg Event.finish hname)
    simp [inTypeBehind, hname]
  | _ => rfl

end

namespace Capture

variable {text : List Char} {before ps : List Piece} {k k' : Capture} {p : Piece}

/-- A step moves the flag as the event says. -/
theorem inTypeName_of_step (hstep : step text k p = .ok k') :
    k'.inTypeName = inTypeBehind k.inTypeName p.event := by
  cases stepCase_of_step hstep with
  | opensType h => exact (inTypeBehind_of_opens h _).symm
  | closesType h => exact (inTypeBehind_of_closes h _).symm
  | opensView h =>
    have htype : ¬ p.event.Opens typeElement := fun htype => not_opensView_of_opensType htype h
    exact (inTypeBehind_of_ne htype h.not_closes _).symm
  | endsView h | capturesView h =>
    have htype : ¬ p.event.Closes typeElement := fun htype => not_closesView_of_closesType htype h
    exact (inTypeBehind_of_ne (fun hopens => hopens.not_closes h) htype _).symm
  | @names raw cs h =>
    obtain ⟨names, hnames⟩ := addName_eq k (String.ofList (Text.trimChars cs))
    rw [hnames, h]
    rfl
  | keeps hopens hcloses =>
    exact (inTypeBehind_of_ne (hopens _ (by simp)) (hcloses _ (by simp)) _).symm

/-- Inside a type name only text that decodes is passed. -/
theorem decodes_of_step (hstep : step text k p = .ok k') (hin : k.inTypeName = true) :
    p.event.Decodes := by
  cases hevent : p.event with
  | text raw =>
    show (Xml.unescape raw).isOk = true
    cases stepCase_of_step hstep with
    | names h _ hdecoded =>
      obtain rfl := Event.text.inj (hevent.symm.trans h)
      rw [hdecoded]
      rfl
    | keeps _ _ htext => exact absurd hin (by simp [htext raw hevent])
    | opensType h | closesType h | opensView h | endsView h | capturesView h =>
      rw [hevent] at h
      exact absurd h (by simp [Event.Opens, Event.Closes])
  | _ => trivial

/-- Whatever is read to the end decodes in its type names. -/
theorem typesDecode_of_read (h : k.read text ps = .ok k') :
    TypesDecode k.inTypeName (ps.map (·.event)) := by
  induction ps generalizing k with
  | nil => trivial
  | cons p ps ih =>
    rw [← List.singleton_append] at h
    obtain ⟨k₁, hp, hps⟩ := exists_of_read_append h
    rw [read_singleton] at hp
    have hrest := ih hps
    rw [inTypeName_of_step hp] at hrest
    exact ⟨decodes_of_step hp, hrest⟩

/-! ## Open views -/

/-- An open view began at a `View` start tag among the pieces that were read, and no `View` end tag
stands behind it. -/
def Marks (before : List Piece) (k : Capture) : Prop :=
  ∀ start, k.viewStart = some start → ∃ front first between,
    before = front ++ first :: between ∧ first.start = start ∧ first.event.Opens viewElement ∧
      ∀ q ∈ between, ¬ q.event.Closes viewElement

theorem marks_of_eq_none (h : k.viewStart = none) (before : List Piece) : k.Marks before := by
  intro start hstart
  rw [h] at hstart
  contradiction

/-- A piece behind an open view that is no `View` end tag. -/
theorem Marks.skip (h : k.Marks before) (hstart : k'.viewStart = k.viewStart)
    (hp : ¬ p.event.Closes viewElement) : k'.Marks (before ++ [p]) := by
  intro start hopen
  rw [hstart] at hopen
  obtain ⟨front, first, between, rfl, hfirst, hopens, hbetween⟩ := h start hopen
  refine ⟨front, first, between ++ [p], by simp, hfirst, hopens, ?_⟩
  rw [List.forall_mem_append, List.forall_mem_singleton]
  exact ⟨hbetween, hp⟩

/-- The mark of the open view is kept by a step. -/
theorem Marks.step (h : k.Marks before) (hstep : Capture.step text k p = .ok k') :
    k'.Marks (before ++ [p]) := by
  cases viewStep_of_step hstep with
  | opens hopens hstart =>
    cases hopen : k.viewStart with
    | some start =>
      rw [hopen] at hstart
      exact h.skip (hstart.trans hopen.symm) hopens.not_closes
    | none =>
      intro start hstart'
      rw [hstart, hopen] at hstart'
      refine ⟨before, p, [], rfl, Option.some.inj hstart', hopens, ?_⟩
      simp
  | ends _ _ hstart => exact marks_of_eq_none hstart _
  | captures _ _ _ hstart => exact marks_of_eq_none hstart _
  | keeps _ hcloses hstart => exact h.skip hstart hcloses

/-- **One piece can be read**, when its entities can be read where a type name is open, and the
slice of an open view is there at its end tag. -/
theorem exists_step (hp : k.inTypeName = true → p.event.Decodes)
    (hslice : ∀ start, k.viewStart = some start →
      ∃ view, Text.sliceBytes text start p.stop = some view) :
    ∃ k', step text k p = .ok k' := by
  obtain ⟨start, stop, event⟩ := p
  cases event with
  | finish name =>
    simp only [step, endTag]
    split
    · exact ⟨_, rfl⟩
    split
    · cases hopen : k.viewStart with
      | none => exact ⟨_, rfl⟩
      | some start =>
        obtain ⟨view, hview⟩ := hslice start hopen
        simp only [hview]
        exact ⟨_, rfl⟩
    · exact ⟨_, rfl⟩
  | text raw =>
    rw [step_text]
    split
    next hin =>
      have hdecodes : (Xml.unescape raw).isOk = true := hp hin
      cases hraw : Xml.unescape raw with
      | error e =>
        rw [hraw] at hdecodes
        contradiction
      | ok cs => exact ⟨_, rfl⟩
    next => exact ⟨_, rfl⟩
  | _ => exact ⟨_, rfl⟩

/-- **Several pieces can be read**, behind those in front. -/
theorem Marks.exists_read (h : k.Marks before) (hcovers : Xml.Covers 0 (before ++ ps) text)
    (hdecodes : TypesDecode k.inTypeName (ps.map (·.event))) :
    ∃ k', k.read text ps = .ok k' ∧ k'.Marks (before ++ ps) := by
  induction ps generalizing k before with
  | nil => exact ⟨k, rfl, by rwa [List.append_nil]⟩
  | cons p ps ih =>
    obtain ⟨hfirst, hrest⟩ := hdecodes
    have hslice : ∀ start, k.viewStart = some start →
        ∃ view, Text.sliceBytes text start p.stop = some view := by
      intro start hopen
      obtain ⟨front, first, between, rfl, rfl, -⟩ := h start hopen
      rw [List.append_assoc, List.cons_append] at hcovers
      obtain ⟨_, _, _, hview, -⟩ := hcovers.exists_slice
      exact ⟨_, hview⟩
    obtain ⟨k₁, hp⟩ := exists_step hfirst hslice
    rw [← inTypeName_of_step hp] at hrest
    have hsplit : before ++ p :: ps = before ++ [p] ++ ps := by simp
    rw [hsplit] at hcovers ⊢
    obtain ⟨k', hk', hmarks⟩ := ih (h.step hp) hcovers hrest
    refine ⟨k', ?_, hmarks⟩
    rw [← List.singleton_append, read_append_of_ok ((read_singleton text k p).trans hp)]
    exact hk'

end Capture

/-- **When a well-formed document can be parsed**, if it has no byte order mark. -/
theorem exists_parse_iff {text : String} (hform : Xml.IsWellFormed text)
    (hmark : Xml.dropMark text.toList = text.toList) (path : Path) :
    (∃ d, parse path text = .ok d) ↔ TypesDecode false (Xml.events text) := by
  constructor
  · rintro ⟨d, hparse⟩
    obtain ⟨k, hcapture, -⟩ := parse_eq_ok_iff.mp hparse
    exact Capture.typesDecode_of_read (capture_eq_ok_iff.mp hcapture).1
  · intro hdecodes
    have hcovers := Xml.covers_pieces hform.read
    rw [hmark] at hcovers
    have hblank : Capture.blank.Marks [] := Capture.marks_of_eq_none rfl []
    obtain ⟨k, hread, hmarks⟩ := hblank.exists_read hcovers hdecodes
    have hend : k.viewStart = none := by
      cases hopen : k.viewStart with
      | none => rfl
      | some start =>
        -- no end tag stands behind the view that is open, so it would stay open
        obtain ⟨front, first, between, hpieces, -, hopens, hbetween⟩ := hmarks start hopen
        have hclosed := hform.closed
        rw [Xml.events, show (Xml.pieces text.toList).1 = front ++ first :: between from hpieces]
          at hclosed
        exact absurd (Span.mem_of_opens hclosed hopens hbetween) List.not_mem_nil
    exact ⟨_, parse_eq_ok_iff.mpr ⟨k, capture_eq_ok_iff.mpr ⟨hread, hform.read, hend⟩, rfl⟩⟩

end CmdletForge.Display.CustomDocument
