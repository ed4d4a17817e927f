import CmdletForge.Proofs.Lists.Positions
import CmdletForge.Proofs.Xml.Contents
import CmdletForge.Proofs.Xml.Pieces

/-!
# CmdletForge.Proofs.Xml.Elements

The elements of a text, as parts of its pieces.

1. `openBehind` are the elements that are open behind some events.  A name that is opened and not
   closed is among them (`mem_openBehind`), and one that is not opened is not
   (`not_mem_openBehind`).
2. A `Span` is a part of a list of pieces, from one piece to a later one.  It is an element when it
   goes from a start tag to an end tag, and what is opened inside is closed inside.
3. `Spans` are those from a start tag up to the next end tag of the same name, one behind the
   other.  Such a span is an element exactly when no start tag of the name stands inside of it
   (`Span.isElement_iff`).  Each element of the name that is not inside of another one begins one
   of them (`Spans.exists_of_isOutermost`).
4. In a well-formed text tags match and no element stays open (`IsWellFormed`).
-/

namespace CmdletForge.Xml

/-! ## Tags of a name -/

namespace Event

/-- The event is a start tag of the name. -/
def Opens (name : List Char) : Event → Prop
  | .start content => tagName content = name
  | _ => False

/-- The event is an end tag of the name. -/
def Closes (name : List Char) (e : Event) : Prop := e = .finish name

instance (name : List Char) : DecidablePred (Opens name)
  | .start content => inferInstanceAs (Decidable (tagName content = name))
  | .text _ | .empty _ | .finish _ | .cdata _ | .doctype | .aside => isFalse id

variable {name : List Char} {e : Event} {es es' : List (List Char)}

/-- An event opens an element, or closes the innermost one, or does neither. -/
theorem nest_cases (h : e.nest es = some es') :
    (∃ opened, e.Opens opened ∧ es' = opened :: es) ∨
      (∃ closed, e.Closes closed ∧ es = closed :: es') ∨
        es' = es ∧ ∀ name, ¬ e.Opens name ∧ ¬ e.Closes name := by
  cases e with
  | start content => exact .inl ⟨tagName content, rfl, (Option.some.inj h).symm⟩
  | finish found =>
    cases es with
    | nil => contradiction
    | cons expected outer =>
      rw [nest, Option.ite_none_right_eq_some] at h
      obtain ⟨rfl, h⟩ := h
      exact .inr (.inl ⟨found, rfl, by rw [Option.some.inj h]⟩)
  | _ => exact .inr (.inr ⟨(Option.some.inj h).symm, by simp [Opens, Closes]⟩)

theorem Opens.eq {name' : List Char} (h : e.Opens name) (h' : e.Opens name') : name = name' := by
  cases e with
  | start content => exact h.symm.trans h'
  | _ => exact h.elim

/-- What opens an element closes none. -/
theorem Opens.not_closes {name' : List Char} (h : e.Opens name) : ¬ e.Closes name' := by
  rintro rfl
  exact h

theorem Opens.nest_eq (h : e.Opens name) (es : List (List Char)) :
    e.nest es = some (name :: es) := by
  cases e with
  | start content => exact congrArg (some <| · :: es) h
  | _ => exact h.elim

end Event

/-! ## Open elements -/

/-- The elements that are open behind some events, when these may stand where the elements `es`
are open; the innermost come first. -/
def openBehind (es : List (List Char)) (events : List Event) : Option (List (List Char)) :=
  events.foldlM Event.nest es

section
variable {name : List Char} {es es' inner outer : List (List Char)} {events xs ys : List Event}
  {e : Event}

/-- Events open and close elements one part after the other. -/
theorem openBehind_append (es : List (List Char)) (xs ys : List Event) :
    openBehind es (xs ++ ys) = (openBehind es xs).bind fun es => openBehind es ys :=
  List.foldlM_append

theorem exists_of_openBehind_append (h : openBehind es (xs ++ ys) = some es') :
    ∃ es₁, openBehind es xs = some es₁ ∧ openBehind es₁ ys = some es' := by
  rw [openBehind_append] at h
  exact Option.bind_eq_some_iff.mp h

theorem exists_of_openBehind_cons (h : openBehind es (e :: events) = some es') :
    ∃ es₁, e.nest es = some es₁ ∧ openBehind es₁ events = some es' :=
  Option.bind_eq_some_iff.mp h

/-- What is opened and closed does not depend on the elements further out. -/
theorem openBehind_append_right (h : openBehind es events = some es')
    (outer : List (List Char)) : openBehind (es ++ outer) events = some (es' ++ outer) := by
  induction events generalizing es with
  | nil =>
    obtain rfl := Option.some.inj h
    rfl
  | cons e events ih =>
    obtain ⟨es₁, he, hevents⟩ := exists_of_openBehind_cons h
    show (e.nest (es ++ outer)).bind _ = _
    rw [Event.nest_append_right he outer]
    exact ih hevents

/-- **An element that is open or opened, and not closed, is open behind.** -/
theorem mem_openBehind (hclosed : ∀ e ∈ events, ¬ e.Closes name)
    (h : openBehind es events = some es') (hopen : name ∈ es ∨ ∃ e ∈ events, e.Opens name) :
    name ∈ es' := by
  induction events generalizing es with
  | nil =>
    obtain rfl := Option.some.inj h
    exact hopen.resolve_right (by simp)
  | cons e events ih =>
    obtain ⟨es₁, he, hevents⟩ := exists_of_openBehind_cons h
    rw [List.forall_mem_cons] at hclosed
    simp only [List.mem_cons, exists_eq_or_imp] at hopen
    refine ih hclosed.2 hevents ?_
    rcases hopen with hmem | hfirst | hlater
    · left
      rcases Event.nest_cases he with ⟨opened, -, rfl⟩ | ⟨closed, hclose, rfl⟩ | ⟨rfl, -⟩
      · exact List.mem_cons_of_mem _ hmem
      · have hne : name ≠ closed := fun heq => hclosed.1 (heq ▸ hclose)
        exact List.mem_of_ne_of_mem hne hmem
      · exact hmem
    · left
      rw [hfirst.nest_eq] at he
      obtain rfl := Option.some.inj he
      exact List.mem_cons_self
    · exact .inr hlater

/-- **An element that is neither open nor opened** is not closed, and not open behind. -/
theorem not_mem_openBehind (hopened : ∀ e ∈ events, ¬ e.Opens name)
    (h : openBehind es events = some es') (hes : name ∉ es) :
    name ∉ es' ∧ ∀ e ∈ events, ¬ e.Closes name := by
  induction events generalizing es with
  | nil =>
    obtain rfl := Option.some.inj h
    exact ⟨hes, by simp⟩
  | cons e events ih =>
    obtain ⟨es₁, he, hevents⟩ := exists_of_openBehind_cons h
    rw [List.forall_mem_cons] at hopened ⊢
    have hstep : name ∉ es₁ ∧ ¬ e.Closes name := by
      rcases Event.nest_cases he with ⟨opened, hopen, rfl⟩ | ⟨closed, hclose, rfl⟩ | ⟨rfl, hneither⟩
      · have hne : name ≠ opened := fun heq => hopened.1 (heq ▸ hopen)
        exact ⟨List.not_mem_cons_of_ne_of_not_mem hne hes, hopen.not_closes⟩
      · rw [List.mem_cons, not_or] at hes
        refine ⟨hes.2, fun hclose' => hes.1 ?_⟩
        exact Event.finish.inj (hclose'.symm.trans hclose)
      · exact ⟨hes, (hneither name).2⟩
    obtain ⟨hmem, hlater⟩ := ih hopened.2 hevents hstep.1
    exact ⟨hmem, hstep.2, hlater⟩

/-- Where an element is not closed, all that is closed lies inside of it. -/
theorem openBehind_inside (hclosed : ∀ e ∈ events, ¬ e.Closes name)
    (h : openBehind (inner ++ name :: outer) events = some es') :
    ∃ inner', es' = inner' ++ name :: outer ∧ openBehind inner events = some inner' := by
  induction events generalizing inner with
  | nil => exact ⟨inner, (Option.some.inj h).symm, rfl⟩
  | cons e events ih =>
    obtain ⟨es₁, he, hevents⟩ := exists_of_openBehind_cons h
    rw [List.forall_mem_cons] at hclosed
    have hstep : ∃ inner₁, e.nest inner = some inner₁ ∧ es₁ = inner₁ ++ name :: outer := by
      cases hinner : e.nest inner with
      | some inner₁ =>
        refine ⟨inner₁, rfl, ?_⟩
        exact Option.some.inj (he.symm.trans (Event.nest_append_right hinner _))
      | none =>
        -- it could only close the element itself
        rcases Event.nest_cases he with ⟨opened, hopen, -⟩ | ⟨closed, hclose, hes⟩ | ⟨-, hneither⟩
        · rw [hopen.nest_eq] at hinner
          contradiction
        · cases inner with
          | nil =>
            obtain ⟨rfl, -⟩ := List.cons.inj hes
            exact absurd hclose hclosed.1
          | cons found rest =>
            obtain ⟨rfl, -⟩ := List.cons.inj hes
            rw [hclose, Event.nest, if_pos rfl] at hinner
            contradiction
        · cases e with
          | start content => exact absurd rfl (hneither (tagName content)).1
          | finish found => exact absurd rfl (hneither found).2
          | _ => contradiction
    obtain ⟨inner₁, hinner, rfl⟩ := hstep
    obtain ⟨inner', hes', hrest⟩ := ih hclosed.2 hevents
    refine ⟨inner', hes', ?_⟩
    show (e.nest inner).bind _ = _
    rw [hinner]
    exact hrest

end

/-! ## The events of a text -/

theorem openBehind_gapEvents (es : List (List Char)) (gap : List Char) :
    openBehind es (gapEvents gap) = some es := by
  unfold gapEvents
  split <;> rfl

/-- The events of tokens open what the tokens do. -/
theorem openBehind_eventsOf (es : List (List Char)) (ts : List Token) :
    openBehind es (eventsOf ts) = nestAll es ts := by
  induction ts generalizing es with
  | nil => rfl
  | cons t ts ih =>
    rw [eventsOf_cons, openBehind_append, openBehind_gapEvents, Option.bind_some, nestAll_cons]
    show (t.event.nest es).bind _ = _
    exact congrArg _ (funext fun es => ih es)

/-- In a text that is read without a fault, end tags match the start tags that are open. -/
theorem exists_openBehind {cs : List Char} (h : (pieces cs).2 = none) :
    ∃ es, openBehind [] ((pieces cs).1.map (·.event)) = some es := by
  obtain ⟨ts, gap, es, hcuts⟩ := exists_cuts_of_pieces h
  refine ⟨es, ?_⟩
  rw [hcuts.pieces_eq, List.map_append, map_event_piecesOf, map_event_gapPieces,
    openBehind_append, openBehind_eventsOf, hcuts.nest_eq, Option.bind_some, openBehind_gapEvents]

/-! ## Spans -/

/-- A part of a list of pieces, from one piece to a later one. -/
structure Span where
  before : List Piece
  first : Piece
  inside : List Piece
  last : Piece
  after : List Piece

namespace Span

/-- The list of which the span is a part. -/
def pieces (s : Span) : List Piece := s.before ++ s.first :: (s.inside ++ s.last :: s.after)

/-- The span goes from a start tag to an end tag of the name. -/
structure IsTagged (s : Span) (name : List Char) : Prop where
  opens : s.first.event.Opens name
  closes : s.last.event.Closes name

/-- The span is an element: the end tag matches the start tag, since whatever is opened inside is
closed inside. -/
structure IsElement (s : Span) (name : List Char) : Prop extends s.IsTagged name where
  balanced : openBehind [] (s.inside.map (·.event)) = some []

/-- No end tag of the name stands inside: the span ends at the next one. -/
def IsShortest (s : Span) (name : List Char) : Prop := ∀ p ∈ s.inside, ¬ p.event.Closes name

/-- No start tag of the name stands inside. -/
def IsPlain (s : Span) (name : List Char) : Prop := ∀ p ∈ s.inside, ¬ p.event.Opens name

/-- The span does not begin inside of an element of the name. -/
def IsOutermost (s : Span) (name : List Char) : Prop :=
  ∃ es, openBehind [] (s.before.map (·.event)) = some es ∧ name ∉ es

variable {s : Span} {name : List Char} {es : List (List Char)}

/-- Behind a start tag and no end tag of its name, an element of that name is open. -/
theorem mem_of_opens {front between : List Piece} {first : Piece}
    (h : openBehind [] ((front ++ first :: between).map (·.event)) = some es)
    (hopens : first.event.Opens name) (hbetween : ∀ p ∈ between, ¬ p.event.Closes name) :
    name ∈ es := by
  rw [List.map_append] at h
  obtain ⟨es₁, -, h⟩ := exists_of_openBehind_append h
  refine mem_openBehind (fun e he => ?_) h (.inr ⟨first.event, List.mem_cons_self, hopens⟩)
  obtain ⟨p, hp, rfl⟩ := List.mem_map.mp he
  rcases List.mem_cons.mp hp with rfl | hp
  · exact hopens.not_closes
  · exact hbetween p hp

/-- **When a span up to the next end tag is an element**: when no start tag of the name stands
inside of it. -/
theorem isElement_iff (hnest : openBehind [] (s.pieces.map (·.event)) = some es)
    (htagged : s.IsTagged name) (hshortest : s.IsShortest name) :
    s.IsElement name ↔ s.IsPlain name := by
  have hclosed : ∀ e ∈ s.inside.map (·.event), ¬ e.Closes name := List.forall_mem_map.mpr hshortest
  rw [pieces, List.map_append, List.map_cons, List.map_append, List.map_cons] at hnest
  obtain ⟨outer, -, hrest⟩ := exists_of_openBehind_append hnest
  obtain ⟨_, hfirst, hrest⟩ := exists_of_openBehind_cons hrest
  rw [htagged.opens.nest_eq] at hfirst
  obtain rfl := Option.some.inj hfirst
  obtain ⟨_, hinside, hrest⟩ := exists_of_openBehind_append hrest
  -- behind the inside, the elements `inner` are open that were opened there
  rw [← List.nil_append (name :: outer)] at hinside
  obtain ⟨inner, rfl, hinner⟩ := openBehind_inside hclosed hinside
  constructor
  · rintro ⟨-, hbalanced⟩ p hp hopens
    have hmem : name ∈ [] := mem_openBehind hclosed hbalanced
      (.inr ⟨p.event, List.mem_map_of_mem hp, hopens⟩)
    contradiction
  · intro hplain
    obtain ⟨hmem, -⟩ := not_mem_openBehind (List.forall_mem_map.mpr hplain) hinner List.not_mem_nil
    obtain ⟨_, hlast, -⟩ := exists_of_openBehind_cons hrest
    cases inner with
    | nil => exact ⟨htagged, hinner⟩
    | cons found inner =>
      rw [htagged.closes, List.cons_append, Event.nest, Option.ite_none_right_eq_some] at hlast
      exact absurd (hlast.1 ▸ List.mem_cons_self) hmem

/-- In an element without start tags of its name inside there are no end tags of it either, and
the other way round. -/
theorem IsElement.isShortest_iff (h : s.IsElement name) : s.IsShortest name ↔ s.IsPlain name := by
  constructor
  · intro hshortest p hp hopens
    have hmem : name ∈ [] := mem_openBehind (List.forall_mem_map.mpr hshortest) h.balanced
      (.inr ⟨p.event, List.mem_map_of_mem hp, hopens⟩)
    contradiction
  · intro hplain
    have hclosed := (not_mem_openBehind (List.forall_mem_map.mpr hplain) h.balanced
      List.not_mem_nil).2
    exact fun p hp => hclosed p.event (List.mem_map_of_mem hp)

/-- Of two spans that begin with the same start tag, the shortest one is the element exactly when
no start tag of the name stands inside of the element. -/
theorem eq_iff_isPlain {e : Span} (htagged : s.IsTagged name) (hshortest : s.IsShortest name)
    (he : e.IsElement name) (hpieces : s.pieces = e.pieces) (hbefore : s.before = e.before) :
    s = e ↔ e.IsPlain name := by
  obtain ⟨before, first, inside, last, after⟩ := s
  obtain ⟨before', first', inside', last', after'⟩ := e
  obtain rfl : before = before' := hbefore
  obtain ⟨hfirst, hrest⟩ := List.cons.inj (List.append_cancel_left hpieces)
  simp only at hfirst hrest
  subst hfirst
  rcases append_cons_cases hrest with ⟨more, rfl, -⟩ | ⟨rfl, rfl, rfl⟩ | ⟨more, rfl, -⟩
  · -- the element cannot end after the first end tag of its name, when it is plain
    constructor
    · intro heq
      have hlonger := congrArg Span.inside heq
      simp at hlonger
    · intro hplain
      exact absurd htagged.closes (he.isShortest_iff.mpr hplain last (by simp))
  · exact ⟨fun _ => he.isShortest_iff.mp hshortest, fun _ => rfl⟩
  · exact absurd he.closes (hshortest last' (by simp))

/-- Inside of an element, it is open. -/
theorem IsElement.mem_openBehind (h : s.IsElement name) {front back : List Piece} {p : Piece}
    (hinside : s.inside = front ++ p :: back)
    (hes : openBehind [] ((s.before ++ s.first :: front).map (·.event)) = some es) : name ∈ es := by
  have hbalanced := h.balanced
  rw [hinside, List.map_append] at hbalanced
  obtain ⟨inner, hinner, -⟩ := exists_of_openBehind_append hbalanced
  rw [List.map_append, List.map_cons] at hes
  obtain ⟨outer, -, hes⟩ := exists_of_openBehind_append hes
  obtain ⟨_, hfirst, hes⟩ := exists_of_openBehind_cons hes
  rw [h.opens.nest_eq] at hfirst
  obtain rfl := Option.some.inj hfirst
  obtain rfl := Option.some.inj (hes.symm.trans (openBehind_append_right hinner (name :: outer)))
  simp

end Span

/-- No start tag of the name stands inside of an element of the name. -/
def IsApart (name : List Char) (ps : List Piece) : Prop :=
  ∀ s : Span, s.pieces = ps → s.first.event.Opens name → s.IsOutermost name

/-- When start tags stand apart, none stands in a span in which an element is open throughout. -/
theorem IsApart.isPlain {name : List Char} {ps : List Piece} {s : Span} (h : IsApart name ps)
    (hpieces : s.pieces = ps)
    (hopen : ∀ front p back es, s.inside = front ++ p :: back →
      openBehind [] ((s.before ++ s.first :: front).map (·.event)) = some es → name ∈ es) :
    s.IsPlain name := by
  intro p hp hopens
  obtain ⟨front, back, hinside⟩ := List.append_of_mem hp
  have hpieces' : Span.pieces ⟨s.before ++ s.first :: front, p, back, s.last, s.after⟩ = ps := by
    rw [← hpieces, Span.pieces, Span.pieces, hinside]
    simp
  obtain ⟨es, hes, hnot⟩ := h _ hpieces' hopens
  exact hnot (hopen front p back es hinside hes)

/-! ## Spans one behind the other -/

/-- The spans of a name that begin in `ps`, in front of which the pieces `before` stand: each goes
from the first start tag behind the one before up to the next end tag. -/
inductive Spans (name : List Char) : (before ps : List Piece) → List Span → Prop
  | done {before ps : List Piece} (h : ∀ p ∈ ps, ¬ p.event.Opens name) : Spans name before ps []
  | span {before skipped inside after : List Piece} {first last : Piece} {spans : List Span}
      (hskipped : ∀ p ∈ skipped, ¬ p.event.Opens name) (hfirst : first.event.Opens name)
      (hinside : ∀ p ∈ inside, ¬ p.event.Closes name) (hlast : last.event.Closes name)
      (hafter : Spans name (before ++ skipped ++ first :: inside ++ [last]) after spans) :
      Spans name before (skipped ++ first :: (inside ++ last :: after))
        (⟨before ++ skipped, first, inside, last, after⟩ :: spans)

namespace Spans

variable {name : List Char} {before ps : List Piece} {spans : List Span} {s : Span}
  {es : List (List Char)}

theorem pieces_eq (h : Spans name before ps spans) (hs : s ∈ spans) : s.pieces = before ++ ps := by
  induction h with
  | done => contradiction
  | span _ _ _ _ _ ih =>
    rcases List.mem_cons.mp hs with rfl | hs
    · simp [Span.pieces]
    · simp [ih hs]

theorem prefix_before (h : Spans name before ps spans) (hs : s ∈ spans) : before <+: s.before := by
  induction h with
  | done => contradiction
  | @span before skipped inside _ first last _ _ _ _ _ _ ih =>
    rcases List.mem_cons.mp hs with rfl | hs
    · exact List.prefix_append before skipped
    · refine .trans ?_ (ih hs)
      exact ⟨skipped ++ first :: inside ++ [last], by simp⟩

/-- A span begins and ends with the tags of its element. -/
theorem isTagged (h : Spans name before ps spans) (hs : s ∈ spans) : s.IsTagged name := by
  induction h with
  | done => contradiction
  | span _ hfirst _ hlast _ ih =>
    rcases List.mem_cons.mp hs with rfl | hs
    · exact ⟨hfirst, hlast⟩
    · exact ih hs

/-- A span ends at the first end tag of its element. -/
theorem isShortest (h : Spans name before ps spans) (hs : s ∈ spans) : s.IsShortest name := by
  induction h with
  | done => contradiction
  | span _ _ hinside _ _ ih =>
    rcases List.mem_cons.mp hs with rfl | hs
    · exact hinside
    · exact ih hs

/-- A piece in front that is no start tag of the name. -/
theorem skip {p : Piece} (h : Spans name (before ++ [p]) ps spans) (hp : ¬ p.event.Opens name) :
    Spans name before (p :: ps) spans := by
  cases h with
  | done hps => exact .done (List.forall_mem_cons.mpr ⟨hp, hps⟩)
  | @span _ skipped inside after first last spans hskipped hfirst hinside hlast hafter =>
    have hbefore : before ++ [p] ++ skipped = before ++ p :: skipped := by simp
    rw [hbefore] at hafter ⊢
    exact .span (List.forall_mem_cons.mpr ⟨hp, hskipped⟩) hfirst hinside hlast hafter

/-- **Each span ends before the next one begins.** -/
theorem pairwise_stop_le_start (h : Spans name before ps spans) {cs : List Char}
    (hcovers : Covers 0 (before ++ ps) cs) :
    spans.Pairwise fun s t => s.last.stop ≤ t.first.start := by
  induction h with
  | done => exact .nil
  | @span before skipped inside after first last spans _ _ _ _ hafter ih =>
    have hpieces : before ++ (skipped ++ first :: (inside ++ last :: after)) =
        before ++ skipped ++ first :: inside ++ [last] ++ after := by simp
    rw [hpieces] at hcovers
    refine .cons (fun t ht => ?_) (ih hcovers)
    obtain ⟨more, hmore⟩ := hafter.prefix_before ht
    have htext : before ++ skipped ++ first :: inside ++ [last] ++ after =
        (before ++ skipped ++ first :: inside) ++
          last :: (more ++ t.first :: (t.inside ++ t.last :: t.after)) := by
      rw [← hafter.pieces_eq ht, Span.pieces, ← hmore]
      simp
    rw [htext] at hcovers
    exact hcovers.stop_le_start

/-- **Each start tag of the name** begins a span or stands inside of one. -/
theorem exists_of_opens (h : Spans name before ps spans) {p : Piece} (hp : p ∈ ps)
    (hopens : p.event.Opens name) : ∃ s ∈ spans, p ∈ s.first :: s.inside := by
  induction h with
  | done h => exact absurd hopens (h p hp)
  | @span before skipped inside after first last spans hskipped hfirst hinside hlast hafter ih =>
    have hplace : p ∈ skipped ∨ p ∈ first :: inside ∨ p = last ∨ p ∈ after := by
      simpa [or_assoc] using hp
    rcases hplace with hp | hp | rfl | hp
    · exact absurd hopens (hskipped p hp)
    · exact ⟨_, List.mem_cons_self, hp⟩
    · exact absurd hlast hopens.not_closes
    · obtain ⟨s, hs, hmem⟩ := ih hp
      exact ⟨s, List.mem_cons_of_mem _ hs, hmem⟩

/-- **A start tag that is not inside of an element of its name begins a span.** -/
theorem exists_of_isOutermost (h : Spans name before ps spans) {e : Span}
    (hpieces : e.pieces = before ++ ps) (hbefore : before <+: e.before)
    (hopens : e.first.event.Opens name) (houter : e.IsOutermost name) :
    ∃ s ∈ spans, s.before = e.before ∧ s.first = e.first := by
  induction h with
  | done h =>
    obtain ⟨more, hmore⟩ := hbefore
    rw [Span.pieces, ← hmore, List.append_assoc, List.append_cancel_left_eq] at hpieces
    exact absurd hopens (h e.first (by simp [← hpieces]))
  | @span before skipped inside after first last spans hskipped hfirst hinside hlast hafter ih =>
    obtain ⟨more, hmore⟩ := hbefore
    have hrest := hpieces
    rw [Span.pieces, ← hmore, List.append_assoc, List.append_cancel_left_eq] at hrest
    rcases append_cons_cases hrest with
      ⟨between, hbetween, -⟩ | ⟨rfl, rfl, -⟩ | ⟨between, hbetween, hrest⟩
    · exact absurd hopens (hskipped e.first (by simp [hbetween]))
    · exact ⟨_, List.mem_cons_self, hmore, rfl⟩
    subst hbetween
    rw [List.append_assoc, List.append_cancel_left_eq, List.cons_append] at hrest
    rcases append_cons_cases (List.cons.inj hrest).2 with
      ⟨more, rfl, -⟩ | ⟨-, hlast', -⟩ | ⟨more, rfl, -⟩
    · -- it would stand inside of the span, where the element of its start tag is open
      obtain ⟨es, hes, hnot⟩ := houter
      rw [← hmore, ← List.append_assoc] at hes
      exact absurd (Span.mem_of_opens hes hfirst fun p hp => hinside p (by simp [hp])) hnot
    · rw [← hlast'] at hlast
      exact absurd hlast hopens.not_closes
    · have hprefix : before ++ skipped ++ first :: inside ++ [last] <+: e.before :=
        ⟨more, by simp [← hmore]⟩
      obtain ⟨s, hs, hspan⟩ := ih (by simp [hpieces]) hprefix
      exact ⟨s, List.mem_cons_of_mem _ hs, hspan⟩

/-- **Which spans there are, when no element of the name lies inside of another one**: the
elements of the name. -/
theorem mem_iff_isElement (h : Spans name [] ps spans)
    (hnest : openBehind [] (ps.map (·.event)) = some es) (hapart : IsApart name ps) :
    s ∈ spans ↔ s.pieces = ps ∧ s.IsElement name := by
  constructor
  · intro hs
    have hpieces : s.pieces = ps := h.pieces_eq hs
    have htagged := h.isTagged hs
    have hshortest := h.isShortest hs
    refine ⟨hpieces, (Span.isElement_iff (hpieces ▸ hnest) htagged hshortest).mpr ?_⟩
    refine hapart.isPlain hpieces fun front p back es hinside hes => ?_
    exact Span.mem_of_opens hes htagged.opens fun q hq => hshortest q (by simp [hinside, hq])
  · rintro ⟨hpieces, helement⟩
    have houter : s.IsOutermost name := hapart s hpieces helement.opens
    obtain ⟨s', hs', hbefore, -⟩ :=
      h.exists_of_isOutermost hpieces List.nil_prefix helement.opens houter
    have hplain : s.IsPlain name := by
      refine hapart.isPlain hpieces fun front p back es hinside hes => ?_
      exact helement.mem_openBehind hinside hes
    have hpieces' : s'.pieces = s.pieces := (h.pieces_eq hs').trans hpieces.symm
    have heq := (Span.eq_iff_isPlain (h.isTagged hs') (h.isShortest hs') helement hpieces'
      hbefore).mpr hplain
    exact heq ▸ hs'

end Spans

/-! ## Well-formed texts -/

/-- A text can be read with its entities; everything else can. -/
def Event.Decodes : Event → Prop
  | .text raw => (unescape raw).isOk = true
  | _ => True

instance : DecidablePred Event.Decodes
  | .text raw => inferInstanceAs (Decidable ((unescape raw).isOk = true))
  | .start _ | .empty _ | .finish _ | .cdata _ | .doctype | .aside => isTrue trivial

/-- The events of a text, in their order. -/
def events (text : String) : List Event := (pieces text.toList).1.map (·.event)

/-- A text is well-formed: markup can be read to the end, tags match, and no element stays open.
What the entities in it stand for is not looked at. -/
structure IsWellFormed (text : String) : Prop where
  read : (pieces text.toList).2 = none
  closed : openBehind [] (events text) = some []

instance (text : String) : Decidable (IsWellFormed text) :=
  decidable_of_iff ((pieces text.toList).2 = none ∧ openBehind [] (events text) = some [])
    ⟨fun ⟨hread, hclosed⟩ => ⟨hread, hclosed⟩, fun h => ⟨h.read, h.closed⟩⟩

end CmdletForge.Xml
