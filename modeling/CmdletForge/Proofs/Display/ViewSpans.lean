import Mathlib.Data.List.Forall2
import CmdletForge.Proofs.Display.CapturedViews
import CmdletForge.Proofs.Display.CaptureSteps

/-!
# CmdletForge.Proofs.Display.ViewSpans

Where the captured views of a document stand in it.

1. One piece of a document opens a view, ends one, captures one or leaves the views alone
   (`Capture.ViewStep`).
2. So the captured views are the slices of the spans from a `View` start tag up to the next `View`
   end tag, one behind the other (`exists_views`).
3. Such a view begins and ends with the tags of its span.  It is an element unless another `View`
   start tag stands in it; then the end tag of that one ends it too early (`captureLaw`).
-/

namespace CmdletForge.Display.CustomDocument

open Xml (Event Piece Span Spans openBehind)

/-! ## One piece -/

namespace Capture

variable {text : List Char} {k k' : Capture} {p : Piece}

/-- What a piece does to the views. -/
inductive ViewStep (text : List Char) (k : Capture) (p : Piece) (k' : Capture) : Prop
  /-- A start tag of a view; it counts when no view is open. -/
  | opens (h : p.event.Opens viewElement) (hstart : k'.viewStart = (k.viewStart <|> some p.start))
      (hviews : k'.views = k.views)
  /-- An end tag where no view is open. -/
  | ends (h : p.event.Closes viewElement) (hclosed : k.viewStart = none)
      (hstart : k'.viewStart = none) (hviews : k'.views = k.views)
  /-- The end tag of the open view, whichever start tag it belongs to. -/
  | captures {start : Nat} {view : List Char} (h : p.event.Closes viewElement)
      (hopen : k.viewStart = some start) (hslice : Text.sliceBytes text start p.stop = some view)
      (hstart : k'.viewStart = none) (hviews : k'.views = k.views ++ [String.ofList view])
  | keeps (hopens : ¬ p.event.Opens viewElement) (hcloses : ¬ p.event.Closes viewElement)
      (hstart : k'.viewStart = k.viewStart) (hviews : k'.views = k.views)

/-- Every step is one of these. -/
theorem viewStep_of_step (hstep : step text k p = .ok k') : ViewStep text k p k' := by
  cases stepCase_of_step hstep with
  | opensType h => exact .keeps (not_opensView_of_opensType h) h.not_closes rfl rfl
  | closesType h =>
    exact .keeps (fun hview => hview.not_closes h) (not_closesView_of_closesType h) rfl rfl
  | opensView h => exact .opens h rfl rfl
  | endsView h hclosed => exact .ends h hclosed hclosed rfl
  | capturesView h hopen hslice => exact .captures h hopen hslice rfl rfl
  | @names raw cs h =>
    obtain ⟨names, hnames⟩ := addName_eq k (String.ofList (Text.trimChars cs))
    rw [hnames]
    exact .keeps (by simp [h, Event.Opens]) (by simp [h, Event.Closes]) rfl rfl
  | keeps hopens hcloses => exact .keeps (hopens _ (by simp)) (hcloses _ (by simp)) rfl rfl

end Capture

/-! ## Reading a document -/

/-- The view is the slice of the span. -/
def IsSlice (text : List Char) (s : Span) (view : String) : Prop :=
  Text.sliceBytes text s.first.start s.last.stop = some view.toList

/-- The views are the slices of the spans of views that begin in `ps`. -/
def AreSlices (text : List Char) (before ps : List Piece) (views : List String) : Prop :=
  ∃ spans, Spans viewElement before ps spans ∧ List.Forall₂ (IsSlice text) spans views

/-- A view that began at an offset ends in `ps`, and the views are its slice and those of the
spans behind it. -/
inductive EndsIn (text : List Char) (start : Nat) (before : List Piece) :
    List Piece → List String → Prop
  | intro {inside after : List Piece} {last : Piece} {view : List Char} {views : List String}
      (hinside : ∀ p ∈ inside, ¬ p.event.Closes viewElement)
      (hlast : last.event.Closes viewElement)
      (hslice : Text.sliceBytes text start last.stop = some view)
      (hafter : AreSlices text (before ++ inside ++ [last]) after views) :
      EndsIn text start before (inside ++ last :: after) (String.ofList view :: views)

section
variable {text : List Char} {start : Nat} {before ps : List Piece} {p : Piece}
  {views : List String} {k k' : Capture}

theorem AreSlices.skip (h : AreSlices text (before ++ [p]) ps views)
    (hp : ¬ p.event.Opens viewElement) : AreSlices text before (p :: ps) views := by
  obtain ⟨spans, hspans, hviews⟩ := h
  exact ⟨spans, hspans.skip hp, hviews⟩

theorem EndsIn.areSlices (h : EndsIn text p.start (before ++ [p]) ps views)
    (hp : p.event.Opens viewElement) : AreSlices text before (p :: ps) views := by
  obtain @⟨inside, after, last, view, views, hinside, hlast, hslice, spans, hspans, hviews⟩ := h
  have hspan : Spans viewElement before (p :: (inside ++ last :: after))
      (⟨before ++ [], p, inside, last, after⟩ :: spans) :=
    @Spans.span _ before [] _ _ _ _ _ (by simp) hp hinside hlast (by simpa using hspans)
  exact ⟨_, hspan, .cons (by simpa [IsSlice] using hslice) hviews⟩

theorem EndsIn.skip (h : EndsIn text start (before ++ [p]) ps views)
    (hp : ¬ p.event.Closes viewElement) : EndsIn text start before (p :: ps) views := by
  obtain @⟨inside, after, last, view, views, hinside, hlast, hslice, hafter⟩ := h
  have hafter' : AreSlices text (before ++ p :: inside ++ [last]) after views := by
    simpa using hafter
  refine @EndsIn.intro _ _ _ (p :: inside) _ _ _ _ ?_ hlast hslice hafter'
  rw [List.forall_mem_cons]
  exact ⟨hp, hinside⟩

/-- **Reading a document to the end of its views**, from a place where no view is open, or from
inside of one. -/
theorem exists_views (hread : k.read text ps = .ok k') (hend : k'.viewStart = none)
    (before : List Piece) : ∃ views, k'.views = k.views ++ views ∧
      match k.viewStart with
      | none => AreSlices text before ps views
      | some start => EndsIn text start before ps views := by
  induction ps generalizing k before with
  | nil =>
    obtain rfl := Except.ok.inj hread
    refine ⟨[], (List.append_nil _).symm, ?_⟩
    rw [hend]
    exact ⟨[], .done (by simp), .nil⟩
  | cons p ps ih =>
    rw [← List.singleton_append] at hread
    obtain ⟨k₁, hp, hps⟩ := Capture.exists_of_read_append hread
    rw [Capture.read_singleton] at hp
    obtain ⟨views, hviews, hrest⟩ := ih hps (before ++ [p])
    cases Capture.viewStep_of_step hp with
    | opens hopens hstart hsame =>
      refine ⟨views, by rw [hviews, hsame], ?_⟩
      rw [hstart] at hrest
      cases hopen : k.viewStart with
      | none =>
        rw [hopen] at hrest
        exact EndsIn.areSlices hrest hopens
      | some start =>
        rw [hopen] at hrest
        exact EndsIn.skip hrest hopens.not_closes
    | ends hcloses hclosed hstart hsame =>
      refine ⟨views, by rw [hviews, hsame], ?_⟩
      rw [hstart] at hrest
      rw [hclosed]
      exact AreSlices.skip hrest fun hopens => hopens.not_closes hcloses
    | @captures start view hcloses hopen hslice hstart hsame =>
      refine ⟨String.ofList view :: views, by simp [hviews, hsame], ?_⟩
      rw [hstart] at hrest
      rw [hopen]
      exact @EndsIn.intro _ _ _ [] _ _ _ _ (by simp) hcloses hslice (by simpa using hrest)
    | keeps hopens hcloses hstart hsame =>
      refine ⟨views, by rw [hviews, hsame], ?_⟩
      rw [hstart] at hrest
      cases hopen : k.viewStart with
      | none =>
        rw [hopen] at hrest
        exact AreSlices.skip hrest hopens
      | some start =>
        rw [hopen] at hrest
        exact EndsIn.skip hrest hcloses

end

/-! ## Views that stand apart -/

/-- Where views stand apart, none is opened inside another. -/
theorem not_mem_of_viewsApart {xs ys : List Event} {e : Event} {es es' : List (List Char)}
    (h : viewsApart es (xs ++ e :: ys) = true) (hxs : openBehind es xs = some es')
    (he : e.Opens viewElement) : viewElement ∉ es' := by
  induction xs generalizing es with
  | nil =>
    obtain rfl := Option.some.inj hxs
    cases e with
    | start content =>
      rw [List.nil_append, viewsApart, Bool.and_eq_true] at h
      simpa [show Xml.tagName content = viewElement from he] using h.1
    | _ => exact he.elim
  | cons x xs ih =>
    obtain ⟨es₁, hx, hxs⟩ := Xml.exists_of_openBehind_cons hxs
    refine ih ?_ hxs
    cases x with
    | start content =>
      rw [List.cons_append, viewsApart, Bool.and_eq_true] at h
      obtain rfl := Option.some.inj hx
      exact h.2
    | finish name =>
      cases es with
      | nil => contradiction
      | cons expected outer =>
        rw [Event.nest, Option.ite_none_right_eq_some] at hx
        obtain rfl := Option.some.inj hx.2
        exact h
    | _ =>
      obtain rfl := Option.some.inj hx
      exact h

/-- Views that stand apart by their events do so by their pieces. -/
theorem isApart_of_viewsApart {text : String} (h : ViewsApart text)
    (hnest : openBehind [] ((Xml.pieces text.toList).1.map (·.event)) = some es) :
    Xml.IsApart viewElement (Xml.pieces text.toList).1 := by
  intro s hpieces hopens
  rw [← hpieces, Span.pieces, List.map_append] at hnest
  obtain ⟨es₁, hbefore, -⟩ := Xml.exists_of_openBehind_append hnest
  rw [ViewsApart, ← hpieces, Span.pieces, List.map_append, List.map_cons] at h
  exact ⟨es₁, hbefore, not_mem_of_viewsApart h hbefore hopens⟩

/-! ## Captured views -/

/-- A view is what is written from the start tag up to the end tag of a span. -/
structure IsWritten (text : List Char) (s : Span) (view : String) : Prop where
  slice_eq : IsSlice text s view
  begins : ∃ content, Xml.tagName content = viewElement ∧ '<' :: content ++ ['>'] <+: view.toList
  ends : ∃ raw, Xml.Scan.endName raw = viewElement ∧ '<' :: '/' :: raw ++ ['>'] <:+ view.toList

/-- What the captured views of a text are: `spans` are the spans from which they are taken. -/
structure CaptureLaw (text : String) (spans : List Span) (views : List String) : Prop where
  /-- The views are the slices of the spans, in their order; each begins with a start tag of a
  view and ends with an end tag of a view. -/
  written : List.Forall₂ (IsWritten text.toList) spans views
  /-- No two of the slices overlap, and they are in the order of the document. -/
  ordered : spans.Pairwise fun s t => s.last.stop ≤ t.first.start
  /-- A span goes up to the next end tag of a view. -/
  placed : ∀ s ∈ spans, s.pieces = (Xml.pieces text.toList).1 ∧ s.IsTagged viewElement ∧
    s.IsShortest viewElement
  /-- Each start tag of a view begins a span or stands inside of one. -/
  opened : ∀ p ∈ (Xml.pieces text.toList).1, p.event.Opens viewElement →
    ∃ s ∈ spans, p ∈ s.first :: s.inside
  /-- The end tag matches the start tag, and all that is opened is closed, exactly when there is
  no other start tag of a view in between. -/
  complete : ∀ s ∈ spans, s.IsElement viewElement ↔ s.IsPlain viewElement
  /-- A view that is not inside of another one begins a span, and is that span exactly when there
  is no view inside of it. -/
  covers : ∀ e : Span, e.pieces = (Xml.pieces text.toList).1 → e.IsElement viewElement →
    e.IsOutermost viewElement →
      ∃ s ∈ spans, s.before = e.before ∧ s.first = e.first ∧ (s = e ↔ e.IsPlain viewElement)
  /-- When no view is inside of another one, the spans are the views of the document. -/
  exact : ViewsApart text → ∀ s : Span,
    s ∈ spans ↔ s.pieces = (Xml.pieces text.toList).1 ∧ s.IsElement viewElement

/-- The slice of a span begins and ends with its tags. -/
theorem isWritten_of_isSlice {text : List Char} {s : Span} {view : String}
    (hcovers : Xml.Covers 0 s.pieces text) (htagged : s.IsTagged viewElement)
    (hslice : IsSlice text s view) : IsWritten text s view := by
  obtain ⟨first, middle, last, hslice', hfirst, hlast⟩ := hcovers.exists_slice
  have hview : view.toList = first ++ middle ++ last :=
    Option.some.inj (hslice.symm.trans hslice')
  refine ⟨hslice, ?_, ?_⟩
  · obtain ⟨opens, -⟩ := htagged
    cases hevent : s.first.event with
    | start content =>
      rw [hevent] at hfirst opens
      refine ⟨content, opens, middle ++ last, ?_⟩
      rw [hview, show first = _ from hfirst]
      simp
    | _ =>
      rw [hevent] at opens
      exact opens.elim
  · rw [htagged.closes] at hlast
    obtain ⟨raw, hlast, hraw⟩ := hlast
    exact ⟨raw, hraw, first ++ middle, by rw [hview, ← hlast]⟩

/-- **The captured views of a document** that has no byte order mark: the slices from a start tag
of a view up to the next end tag of a view. -/
theorem captureLaw {path : Path} {text : String} {d : CustomDocument}
    (hparse : parse path text = .ok d) (hmark : Xml.dropMark text.toList = text.toList) :
    ∃ spans, CaptureLaw text spans d.views := by
  obtain ⟨k, hcapture, rfl⟩ := parse_eq_ok_iff.mp hparse
  obtain ⟨hread, hfault, hend⟩ := capture_eq_ok_iff.mp hcapture
  obtain ⟨es, hnest⟩ := Xml.exists_openBehind hfault
  have hcovers := Xml.covers_pieces hfault
  rw [hmark] at hcovers
  obtain ⟨views, hviews, spans, hspans, hslices⟩ := exists_views hread hend []
  have hplaced : ∀ s ∈ spans, s.pieces = (Xml.pieces text.toList).1 := fun s hs =>
    hspans.pieces_eq hs
  refine ⟨spans, ?_⟩
  exact {
    written := by
      have hall : k.views = views := hviews.trans (List.nil_append views)
      have hpairs := (List.forall₂_and_left spans views).mpr ⟨fun s hs => hs, hslices⟩
      show List.Forall₂ _ spans k.views
      rw [hall]
      exact hpairs.imp fun s view ⟨hs, hslice⟩ =>
        isWritten_of_isSlice (hplaced s hs ▸ hcovers) (hspans.isTagged hs) hslice
    ordered := hspans.pairwise_stop_le_start hcovers
    placed := fun s hs => ⟨hplaced s hs, hspans.isTagged hs, hspans.isShortest hs⟩
    opened := fun p hp hopens => hspans.exists_of_opens hp hopens
    complete := fun s hs =>
      Span.isElement_iff (hplaced s hs ▸ hnest) (hspans.isTagged hs) (hspans.isShortest hs)
    covers := by
      intro e hpieces helement houter
      obtain ⟨s, hs, hbefore, hfirst⟩ :=
        hspans.exists_of_isOutermost hpieces List.nil_prefix helement.opens houter
      refine ⟨s, hs, hbefore, hfirst, ?_⟩
      exact Span.eq_iff_isPlain (hspans.isTagged hs) (hspans.isShortest hs) helement
        ((hplaced s hs).trans hpieces.symm) hbefore
    exact := fun hapart s =>
      hspans.mem_iff_isElement hnest (isApart_of_viewsApart hapart hnest) }

/-- A document with two views, of which one has a blank in each tag, and an empty view. -/
def twoViews : String := "<All><View><Name>é</Name></View>, <View a='1'/><View ></View ></All>"

theorem captureLaw_twoViews :
    ∃ spans, CaptureLaw twoViews spans ["<View><Name>é</Name></View>", "<View ></View >"] := by
  have hparse : parse "B.ps1xml" twoViews =
      .ok ⟨"B.ps1xml", [], ["<View><Name>é</Name></View>", "<View ></View >"]⟩ := by
    decide +kernel
  exact captureLaw hparse (by decide +kernel)

/-- **A view with a view inside of it is cut short**: it is captured up to the end tag of the inner
one, and what is captured leaves a view open. -/
theorem parse_nestedViews :
    parse "B.ps1xml" "<All><View><View></View></View></All>" =
        .ok ⟨"B.ps1xml", [], ["<View><View></View>"]⟩ ∧
      openBehind [] ((Xml.pieces "<View><View></View>".toList).1.map (·.event)) =
        some [viewElement] := by
  decide +kernel

end CmdletForge.Display.CustomDocument
