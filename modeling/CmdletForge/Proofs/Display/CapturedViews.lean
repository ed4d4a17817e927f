import CmdletForge.Proofs.Display.Capturing

/-!
# CmdletForge.Proofs.Display.CapturedViews

The views that are captured from a document.

1. In some documents no view lies inside of another one (`ViewsApart`).
2. While such a document is read, `Tracks` holds: every view that has been captured is a view
   for itself, and of one that is open, `Alone` says what reading it alone would have come to.
   Nothing below its start tag is closed before its own end tag, since this is the first end tag
   of a view behind it.
3. So every view of such a document is a view for itself (`isView_of_capture`), and a text that
   is made of them captures them again (`exists_read_views`).
-/

namespace CmdletForge.Display.CustomDocument

open Xml (Event Piece Token charsOf piecesOf gapPieces nestAll)

/-! ## Documents without views inside of views -/

/-- No start tag of a view stands where a view is open; the elements `outer` are open in
front. -/
def viewsApart (outer : List (List Char)) : List Event → Bool
  | [] => true
  | .start content :: rest =>
    (Xml.tagName content != viewElement || !outer.contains viewElement) &&
      viewsApart (Xml.tagName content :: outer) rest
  | .finish _ :: rest => viewsApart outer.tail rest
  | _ :: rest => viewsApart outer rest

/-- In the text, no view lies inside of another one. -/
def ViewsApart (text : String) : Prop :=
  viewsApart [] ((Xml.pieces text.toList).1.map (·.event)) = true

instance : Decidable (ViewsApart text) := inferInstanceAs (Decidable (_ = true))

theorem viewsApart_gapPieces (es : List (List Char)) (o : Nat) (gap : List Char)
    (ps : List Piece) :
    viewsApart es ((gapPieces o gap ++ ps).map (·.event)) = viewsApart es (ps.map (·.event)) := by
  unfold gapPieces
  split <;> rfl

/-- Views stay apart behind a token, and the token does not open one inside of another. -/
theorem of_viewsApart_pieces {t : Token} {ps : List Piece}
    (h : viewsApart es ((t.pieces o ++ ps).map (·.event)) = true)
    (hnest : t.event.nest es = some es') :
    (∀ content, t.event = .start content → Xml.tagName content = viewElement →
      viewElement ∉ es) ∧ viewsApart es' (ps.map (·.event)) = true := by
  rw [Token.pieces, List.append_assoc, viewsApart_gapPieces, List.singleton_append,
    List.map_cons] at h
  cases hevent : t.event with
  | start content =>
    simp only [hevent] at h hnest
    rw [viewsApart, Bool.and_eq_true] at h
    obtain rfl := Option.some.inj hnest
    refine ⟨fun _ heq hname hmem => ?_, h.2⟩
    obtain rfl := Event.start.inj heq
    simp [hname, hmem] at h
  | finish name =>
    simp only [hevent] at h hnest
    refine ⟨fun _ heq => by contradiction, ?_⟩
    cases es with
    | nil => contradiction
    | cons expected rest =>
      rw [Event.nest, Option.ite_none_right_eq_some] at hnest
      obtain rfl := Option.some.inj hnest.2
      exact h
  | _ =>
    simp only [hevent] at h hnest
    obtain rfl := Option.some.inj hnest
    exact ⟨fun _ heq => by contradiction, h⟩

/-! ## An open view -/

/-- The document is read up to the tokens `us`, and a view is open in it.  Its tokens so far are
`ts`; reading these alone would have opened the elements `inner` and the view, and left a type
name open or not. -/
structure Alone (us : List Token) (es : List (List Char)) (k : Capture) (ts : List Token)
    (inner : List (List Char)) (inType : Bool) : Prop where
  begins : ∃ markup event rest, ts = ⟨[], markup, event⟩ :: rest
  valid : ∀ t ∈ ts, t.Valid
  chars_eq : ∃ before, charsOf us = before ++ charsOf ts ∧
    k.viewStart = some (Text.width before)
  elements_eq : ∃ outer, es = inner ++ viewElement :: outer
  nest_eq : nestAll [] ts = some (inner ++ [viewElement])
  inner_free : viewElement ∉ inner
  reads : ∃ names, ∀ text,
    Capture.blank.read text (piecesOf 0 ts) = .ok ⟨inType, some 0, names, []⟩
  of_inType : inType = true → k.inTypeName = true ∧ typeElement ∈ inner

section
variable {us ts : List Token} {es es' inner inner' : List (List Char)} {k k₁ k' : Capture}
  {inType inType' : Bool} {t : Token} {text content name rest : List Char} {o begins stop : Nat}

/-- One more token inside of an open view. -/
theorem Alone.step (h : Alone us es k ts inner inType) (hvalid : t.Valid)
    (hgap : k.read text (gapPieces o t.gap) = .ok k₁) (hnest : t.event.nest es = some es')
    (hinner : t.event.nest inner = some inner') (hfree : viewElement ∉ inner')
    (hevent : ∀ text start stop names,
      Capture.step text ⟨inType, some 0, names, []⟩ ⟨start, stop, t.event⟩ =
        .ok ⟨inType', some 0, names, []⟩)
    (hstart : k'.viewStart = k.viewStart)
    (hinType : inType' = true → k'.inTypeName = true ∧ typeElement ∈ inner') :
    Alone (us ++ [t]) es' k' (ts ++ [t]) inner' inType' where
  begins := by
    obtain ⟨markup, event, rest, rfl⟩ := h.begins
    exact ⟨markup, event, rest ++ [t], rfl⟩
  valid := by
    rw [List.forall_mem_append, List.forall_mem_singleton]
    exact ⟨h.valid, hvalid⟩
  chars_eq := by
    obtain ⟨before, hchars, hbefore⟩ := h.chars_eq
    refine ⟨before, ?_, hstart.trans hbefore⟩
    rw [Xml.charsOf_append, hchars, Xml.charsOf_append, List.append_assoc]
  elements_eq := by
    obtain ⟨outer, rfl⟩ := h.elements_eq
    exact ⟨outer, Option.some.inj (hnest.symm.trans (Event.nest_append_right hinner _))⟩
  nest_eq := by
    rw [Xml.nestAll_append, h.nest_eq, Option.bind_some, Xml.nestAll_cons,
      Event.nest_append_right hinner]
    rfl
  inner_free := hfree
  reads := by
    obtain ⟨names, hreads⟩ := h.reads
    obtain ⟨names', hgap'⟩ := Capture.exists_read_gapPieces hgap ⟨inType, some 0, names, []⟩
      fun hin => (h.of_inType hin).1
    refine ⟨names', fun text => ?_⟩
    rw [Xml.piecesOf_append, Capture.read_append_of_ok (hreads text), piecesOf, piecesOf,
      List.append_nil, Capture.read_pieces, hgap']
    exact hevent text _ _ names'
  of_inType := hinType

/-- The end tag of an open view: the view is captured, and it is a view for itself. -/
theorem Alone.close (h : Alone us es k ts [] inType) (hvalid : t.Valid)
    (hevent : t.event = .finish viewElement) : IsView (ts ++ [t]) where
  begins := by
    obtain ⟨markup, event, rest, rfl⟩ := h.begins
    exact ⟨markup, event, rest ++ [t], rfl⟩
  valid := by
    rw [List.forall_mem_append, List.forall_mem_singleton]
    exact ⟨h.valid, hvalid⟩
  nest_eq := by
    rw [Xml.nestAll_append, h.nest_eq, Option.bind_some, Xml.nestAll_cons, hevent]
    rfl
  captures := by
    obtain ⟨names, hreads⟩ := h.reads
    have hin : inType = false := by
      cases inType with
      | false => rfl
      | true => exact absurd (h.of_inType rfl).2 List.not_mem_nil
    subst hin
    refine ⟨names, ?_⟩
    rw [Xml.piecesOf_append, Capture.read_append_of_ok (hreads _), piecesOf, piecesOf,
      List.append_nil, Capture.read_pieces, Capture.read_gapPieces rfl, hevent]
    have hslice : Text.sliceBytes (charsOf (ts ++ [t])) 0
        (0 + Text.width (charsOf ts) + Text.width t.gap + Text.width t.markup) =
          some (charsOf (ts ++ [t])) :=
      Text.sliceBytes_eq_some_iff.mpr ⟨[], [], by simp, rfl, by
        simp [charsOf, Token.chars, Text.width_append, Nat.add_assoc]⟩
    exact Capture.endTag_view (k := ⟨false, some 0, names, []⟩) rfl hslice

/-! ## Reading a document -/

/-- The document is read up to the tokens `us`: the views that were captured are views for
themselves, and so is an open one up to here. -/
structure Tracks (us : List Token) (es : List (List Char)) (k : Capture) : Prop where
  views : ∀ view ∈ k.views, ∃ ts, IsView ts ∧ view = String.ofList (charsOf ts)
  opened : k.viewStart ≠ none → ∃ ts inner inType, Alone us es k ts inner inType

/-- A token that neither begins nor ends a view. -/
theorem Tracks.inside (h : Tracks us es k) (hviews : k'.views = k.views)
    (hstart : k'.viewStart = k.viewStart)
    (hstep : ∀ ts inner inType, Alone us es k ts inner inType →
      ∃ inner' inType', Alone (us ++ [t]) es' k' (ts ++ [t]) inner' inType') :
    Tracks (us ++ [t]) es' k' where
  views := by
    rw [hviews]
    exact h.views
  opened hopen := by
    rw [hstart] at hopen
    obtain ⟨ts, inner, inType, halone⟩ := h.opened hopen
    exact ⟨ts ++ [t], hstep ts inner inType halone⟩

/-- The start tag of an element that is no view. -/
theorem Tracks.start (h : Tracks us es k) (hvalid : t.Valid)
    (hgap : k.read text (gapPieces o t.gap) = .ok k₁) (hevent : t.event = .start content)
    (hnest : t.event.nest es = some es') (hname : Xml.tagName content ≠ viewElement)
    (hread : k₁.startTag (Xml.tagName content) begins = k') : Tracks (us ++ [t]) es' k' := by
  obtain ⟨names, rfl⟩ := Capture.eq_of_read_gapPieces hgap
  have hinner : ∀ inner, t.event.nest inner = some (Xml.tagName content :: inner) := fun inner => by
    rw [hevent]
    rfl
  have hfree : ∀ {inner : List (List Char)}, viewElement ∉ inner →
      viewElement ∉ Xml.tagName content :: inner := fun hfree =>
    List.not_mem_cons_of_ne_of_not_mem (Ne.symm hname) hfree
  by_cases htype : Xml.tagName content = typeElement
  · rw [Capture.startTag, if_pos htype] at hread
    obtain rfl := hread
    refine h.inside rfl rfl fun ts inner inType halone => ⟨Xml.tagName content :: inner, true, ?_⟩
    refine halone.step hvalid hgap hnest (hinner inner) (hfree halone.inner_free) ?_ rfl
      fun _ => ⟨rfl, htype ▸ List.mem_cons_self⟩
    intro text start stop names
    rw [hevent]
    exact congrArg Except.ok (if_pos htype)
  · rw [Capture.startTag_of_ne htype hname] at hread
    obtain rfl := hread
    refine h.inside rfl rfl fun ts inner inType halone => ⟨Xml.tagName content :: inner, inType, ?_⟩
    refine halone.step hvalid hgap hnest (hinner inner) (hfree halone.inner_free) ?_ rfl
      fun hin => ⟨(halone.of_inType hin).1, List.mem_cons_of_mem _ (halone.of_inType hin).2⟩
    intro text start stop names
    rw [hevent]
    exact congrArg Except.ok (Capture.startTag_of_ne htype hname _)

/-- The start tag of a view. -/
theorem Tracks.openView (h : Tracks us es k) (hvalid : t.Valid)
    (hgap : k.read text (gapPieces (Text.width (charsOf us)) t.gap) = .ok k₁)
    (hevent : t.event = .start content) (hnest : t.event.nest es = some es')
    (hname : Xml.tagName content = viewElement) (hapart : viewElement ∉ es)
    (hread : k₁.startTag (Xml.tagName content) (Text.width (charsOf us) + Text.width t.gap) = k') :
    Tracks (us ++ [t]) es' k' := by
  obtain ⟨names, rfl⟩ := Capture.eq_of_read_gapPieces hgap
  have hclosed : k.viewStart = none := by
    by_contra hopen
    obtain ⟨ts, inner, inType, halone⟩ := h.opened hopen
    obtain ⟨outer, houter⟩ := halone.elements_eq
    exact hapart (by rw [houter]; simp)
  have hes' : es' = viewElement :: es := by
    rw [hevent, Event.nest, hname] at hnest
    exact (Option.some.inj hnest).symm
  rw [Capture.startTag, if_neg (hname ▸ viewElement_ne_typeElement), if_pos hname] at hread
  obtain rfl := hread
  rw [hclosed]
  refine ⟨h.views, fun _ => ⟨[⟨[], t.markup, t.event⟩], [], false, ?_⟩⟩
  exact {
    begins := ⟨_, _, [], rfl⟩
    valid := by
      rw [List.forall_mem_singleton]
      exact ⟨List.not_mem_nil, hvalid.reads⟩
    chars_eq := by
      refine ⟨charsOf us ++ t.gap, ?_, by rw [Text.width_append]; rfl⟩
      simp [charsOf, Token.chars]
    elements_eq := ⟨es, hes'⟩
    nest_eq := by
      rw [hevent]
      exact congrArg (some [·]) hname
    inner_free := List.not_mem_nil
    reads := by
      refine ⟨[], fun text => ?_⟩
      rw [hevent, piecesOf, piecesOf, List.append_nil, Capture.read_pieces]
      change Except.ok (Capture.startTag _ (Xml.tagName content) _) = _
      rw [hname]
      rfl
    of_inType := fun h => by contradiction }

/-- The end tag of an element that is no view. -/
theorem Tracks.finish (h : Tracks us es k) (hvalid : t.Valid)
    (hgap : k.read text (gapPieces o t.gap) = .ok k₁) (hevent : t.event = .finish name)
    (hnest : t.event.nest es = some es') (hname : name ≠ viewElement)
    (hread : k₁.endTag text name stop = .ok k') : Tracks (us ++ [t]) es' k' := by
  obtain ⟨names, rfl⟩ := Capture.eq_of_read_gapPieces hgap
  -- the element that is closed lies inside of an open view
  have hinner : ∀ {ts inner inType}, Alone us es k ts inner inType →
      ∃ inner', inner = name :: inner' := by
    intro ts inner inType halone
    obtain ⟨outer, rfl⟩ := halone.elements_eq
    cases inner with
    | nil =>
      rw [hevent, List.nil_append, Event.nest, if_neg hname] at hnest
      contradiction
    | cons expected inner' =>
      rw [hevent, List.cons_append, Event.nest, Option.ite_none_right_eq_some] at hnest
      exact ⟨inner', by rw [hnest.1]⟩
  have hnest' : ∀ inner, t.event.nest (name :: inner) = some inner := fun inner => by
    rw [hevent]
    exact if_pos rfl
  by_cases htype : name = typeElement
  · rw [Capture.endTag, if_pos htype] at hread
    obtain rfl := Except.ok.inj hread
    refine h.inside rfl rfl fun ts inner inType halone => ?_
    obtain ⟨inner', rfl⟩ := hinner halone
    refine ⟨inner', false, halone.step hvalid hgap hnest (hnest' inner')
      (mt (List.mem_cons_of_mem _) halone.inner_free) ?_ rfl fun h => by contradiction⟩
    intro text start stop names
    rw [hevent]
    exact if_pos htype
  · rw [Capture.endTag_of_ne htype hname] at hread
    obtain rfl := Except.ok.inj hread
    refine h.inside rfl rfl fun ts inner inType halone => ?_
    obtain ⟨inner', rfl⟩ := hinner halone
    refine ⟨inner', inType, halone.step hvalid hgap hnest (hnest' inner')
      (mt (List.mem_cons_of_mem _) halone.inner_free) ?_ rfl fun hin =>
        ⟨(halone.of_inType hin).1,
          List.mem_of_ne_of_mem (Ne.symm htype) (halone.of_inType hin).2⟩⟩
    intro text start stop names
    rw [hevent]
    exact Capture.endTag_of_ne htype hname _

/-- The end tag of a view. -/
theorem Tracks.closeView (h : Tracks us es k) (hvalid : t.Valid)
    (hgap : k.read text (gapPieces (Text.width (charsOf us)) t.gap) = .ok k₁)
    (hevent : t.event = .finish viewElement) (hnest : t.event.nest es = some es')
    (htext : text = charsOf (us ++ [t]) ++ rest)
    (hread : k₁.endTag text viewElement (Text.width (charsOf us) + Text.width t.gap +
      Text.width t.markup) = .ok k') : Tracks (us ++ [t]) es' k' := by
  obtain ⟨names, rfl⟩ := Capture.eq_of_read_gapPieces hgap
  cases hstart : k.viewStart with
  | none =>
    rw [Capture.endTag, if_neg viewElement_ne_typeElement, if_pos rfl] at hread
    simp only [hstart] at hread
    obtain rfl := Except.ok.inj hread
    exact ⟨h.views, fun hopen => absurd rfl hopen⟩
  | some start =>
    obtain ⟨ts, inner, inType, halone⟩ := h.opened (by rw [hstart]; exact Option.some_ne_none _)
    obtain ⟨outer, hes⟩ := halone.elements_eq
    have hnil : inner = [] := by
      cases inner with
      | nil => rfl
      | cons expected inner' =>
        rw [hevent, hes, List.cons_append, Event.nest, Option.ite_none_right_eq_some] at hnest
        exact absurd (hnest.1 ▸ List.mem_cons_self) halone.inner_free
    subst hnil
    obtain ⟨before, hchars, hbefore⟩ := halone.chars_eq
    rw [hstart] at hbefore
    obtain rfl := Option.some.inj hbefore
    have hslice : Text.sliceBytes text (Text.width before) (Text.width (charsOf us) +
        Text.width t.gap + Text.width t.markup) = some (charsOf (ts ++ [t])) := by
      refine Text.sliceBytes_eq_some_iff.mpr ⟨before, rest, ?_, rfl, ?_⟩
      · rw [htext, Xml.charsOf_append, hchars, Xml.charsOf_append, List.append_assoc before]
      · rw [hchars, Xml.charsOf_append]
        simp [charsOf, Token.chars, Text.width_append, Nat.add_assoc]
    rw [Capture.endTag_view (k := { k with typeNames := names }) hstart hslice] at hread
    obtain rfl := Except.ok.inj hread
    refine ⟨?_, fun hopen => absurd rfl hopen⟩
    rw [List.forall_mem_append, List.forall_mem_singleton]
    exact ⟨h.views, ts ++ [t], halone.close hvalid hevent, rfl⟩

/-- **One token.** -/
theorem Tracks.step (h : Tracks us es k) (hvalid : t.Valid)
    (hnest : t.event.nest es = some es')
    (hapart : ∀ content, t.event = .start content → Xml.tagName content = viewElement →
      viewElement ∉ es)
    (htext : text = charsOf (us ++ [t]) ++ rest)
    (hread : k.read text (t.pieces (Text.width (charsOf us))) = .ok k') :
    Tracks (us ++ [t]) es' k' := by
  rw [Token.pieces] at hread
  obtain ⟨k₁, hgap, hmarkup⟩ := Capture.exists_of_read_append hread
  rw [Capture.read_singleton] at hmarkup
  -- markup that opens and closes nothing
  have hother (hstep : ∀ (text : List Char) (k : Capture) (start stop : Nat),
        Capture.step text k ⟨start, stop, t.event⟩ = .ok k)
      (hkeep : ∀ es, t.event.nest es = some es) : Tracks (us ++ [t]) es' k' := by
    rw [hstep] at hmarkup
    obtain rfl := Except.ok.inj hmarkup
    obtain ⟨names, rfl⟩ := Capture.eq_of_read_gapPieces hgap
    exact h.inside rfl rfl fun ts inner inType halone => ⟨inner, inType,
      halone.step hvalid hgap hnest (hkeep inner) halone.inner_free
        (fun text start stop names => hstep text _ start stop) rfl halone.of_inType⟩
  cases hevent : t.event with
  | start content =>
    simp only [hevent] at hmarkup
    have hread := Except.ok.inj hmarkup
    by_cases hname : Xml.tagName content = viewElement
    · exact h.openView hvalid hgap hevent hnest hname (hapart content hevent hname) hread
    · exact h.start hvalid hgap hevent hnest hname hread
  | finish name =>
    simp only [hevent] at hmarkup
    by_cases hname : name = viewElement
    · subst hname
      exact h.closeView hvalid hgap hevent hnest htext hmarkup
    · exact h.finish hvalid hgap hevent hnest hname hmarkup
  | text raw =>
    obtain ⟨cs, c, m, -, -, hturn⟩ := hvalid.reads
    exact absurd hevent (Xml.Mode.ne_text_of_turn hturn raw)
  | _ => exact hother (fun _ _ _ _ => by rw [hevent]; rfl) fun _ => by rw [hevent]; rfl

/-- **Several tokens**, in a text in which no view lies inside of another one. -/
theorem Tracks.run {ps : List Piece} (h : Tracks us es k) (hvalid : ∀ t ∈ ts, t.Valid)
    (hnest : nestAll es ts = some es')
    (hapart : viewsApart es
      ((piecesOf (Text.width (charsOf us)) ts ++ ps).map (·.event)) = true)
    (htext : text = charsOf (us ++ ts) ++ rest)
    (hread : k.read text (piecesOf (Text.width (charsOf us)) ts) = .ok k') :
    Tracks (us ++ ts) es' k' := by
  induction ts generalizing us es k with
  | nil =>
    obtain rfl := Option.some.inj hnest
    obtain rfl := Except.ok.inj hread
    rwa [List.append_nil]
  | cons t ts ih =>
    obtain ⟨es₁, ht, hts⟩ := Option.bind_eq_some_iff.mp hnest
    obtain ⟨k₁, hk₁, hk'⟩ := Capture.exists_of_read_append hread
    rw [List.forall_mem_cons] at hvalid
    rw [piecesOf, List.append_assoc] at hapart
    obtain ⟨hstart, hrest⟩ := of_viewsApart_pieces hapart ht
    have hwidth : Text.width (charsOf (us ++ [t])) =
        Text.width (charsOf us) + Text.width t.chars := by
      simp [charsOf, Text.width_append]
    have hsplit : us ++ t :: ts = us ++ [t] ++ ts := by rw [List.append_assoc]; rfl
    have h₁ : Tracks (us ++ [t]) es₁ k₁ := h.step hvalid.1 ht hstart
      (by rw [htext, hsplit, Xml.charsOf_append, List.append_assoc]) hk₁
    rw [hsplit]
    exact ih h₁ hvalid.2 hts (by rwa [hwidth]) (by rw [htext, hsplit]) (by rwa [hwidth])

end

/-- What is captured is read from the pieces of the text. -/
theorem capture_eq_ok_iff {text : List Char} :
    capture text = .ok k ↔ Capture.blank.read text (Xml.pieces text).1 = .ok k ∧
      (Xml.pieces text).2 = none ∧ k.viewStart = none := by
  unfold capture
  rcases Xml.pieces text with ⟨ps, fault⟩
  change (Capture.blank.read text ps >>= fun k => _) = _ ↔ _
  cases Capture.blank.read text ps with
  | error e => exact ⟨fun h => by contradiction, fun h => by cases h.1⟩
  | ok k₁ =>
    cases fault with
    | some f => exact ⟨fun h => by contradiction, fun h => by cases h.2.1⟩
    | none =>
      change (if k₁.viewStart.isSome then Except.error Trouble.openView else .ok k₁) = _ ↔ _
      constructor
      · intro h
        split at h
        · contradiction
        next hopen =>
          obtain rfl := Except.ok.inj h
          exact ⟨rfl, rfl, by simpa using hopen⟩
      · rintro ⟨hk, -, hclosed⟩
        obtain rfl := Except.ok.inj hk
        rw [hclosed]
        rfl

/-- What is parsed is what is captured. -/
theorem parse_eq_ok_iff {path : Path} {text : String} {d : CustomDocument} :
    parse path text = .ok d ↔
      ∃ k, capture text.toList = .ok k ∧ d = ⟨path, k.typeNames, k.views⟩ := by
  unfold parse
  cases capture text.toList with
  | error e => simp [Except.map]
  | ok k => simp [Except.map, eq_comm]

/-- **Every captured view is a view for itself**, when no view lies inside of another one and
the text has no byte order mark. -/
theorem isView_of_capture {text : String} (hcapture : capture text.toList = .ok k)
    (hmark : Xml.dropMark text.toList = text.toList) (hapart : ViewsApart text) :
    ∀ view ∈ k.views, ∃ ts, IsView ts ∧ view = String.ofList (charsOf ts) := by
  obtain ⟨hread, hfault, -⟩ := capture_eq_ok_iff.mp hcapture
  obtain ⟨ts, gap, es, hcuts⟩ := Xml.exists_cuts_of_pieces hfault
  rw [ViewsApart, hcuts.pieces_eq] at hapart
  rw [hcuts.pieces_eq] at hread
  obtain ⟨k₁, hts, hgap⟩ := Capture.exists_of_read_append hread
  have hblank : Tracks [] [] Capture.blank := ⟨fun _ h => by contradiction, fun h => absurd rfl h⟩
  have htracks := hblank.run hcuts.valid hcuts.nest_eq hapart (hmark.symm.trans hcuts.chars_eq) hts
  obtain ⟨names, rfl⟩ := Capture.eq_of_read_gapPieces hgap
  exact htracks.views

/-! ## Texts that are made of views -/

/-- **Views one behind the other**, each with the same text in front, are captured in order. -/
theorem exists_read_views {views : List (List Token)} (hviews : ∀ ts ∈ views, IsView ts)
    (front gap back : List Char) {k : Capture} (htype : k.inTypeName = false)
    (hview : k.viewStart = none) :
    ∃ names, k.read (front ++ charsOf (views.flatMap (regap gap)) ++ back)
      (piecesOf (Text.width front) (views.flatMap (regap gap))) =
        .ok ⟨false, none, names, k.views ++ views.map fun ts => String.ofList (charsOf ts)⟩ := by
  induction views generalizing front k with
  | nil =>
    obtain ⟨inTypeName, viewStart, names, views⟩ := k
    simp only at htype hview
    exact ⟨names, by rw [htype, hview, List.map_nil, List.append_nil]; rfl⟩
  | cons ts views ih =>
    rw [List.forall_mem_cons] at hviews
    obtain ⟨hts, hrest⟩ := hviews
    have hchars := hts.charsOf_regap gap
    have htext : front ++ charsOf ((ts :: views).flatMap (regap gap)) ++ back =
        front ++ (gap ++ charsOf ts) ++ (charsOf (views.flatMap (regap gap)) ++ back) := by
      rw [List.flatMap_cons, Xml.charsOf_append, hchars]
      simp
    obtain ⟨names, hread⟩ := hts.read_within front gap
      (charsOf (views.flatMap (regap gap)) ++ back) htype hview
    obtain ⟨names', hread'⟩ := ih hrest (front ++ (gap ++ charsOf ts))
      (k := ⟨false, none, names, k.views ++ [String.ofList (charsOf ts)]⟩) rfl rfl
    refine ⟨names', ?_⟩
    rw [htext, List.flatMap_cons, Xml.piecesOf_append, Capture.read_append_of_ok hread, hchars,
      ← Text.width_append, ← List.append_assoc _ _ back, hread']
    simp

end CmdletForge.Display.CustomDocument
