import CmdletForge.Display.CustomDocument
import CmdletForge.Proofs.Text.Slices
import CmdletForge.Proofs.Xml.Blocks

/-!
# CmdletForge.Proofs.Display.Capturing

The views that a document captures.

1. `IsView` is a text that is one view for itself: its tokens close what they open, and reading
   it captures it.  Where such a text stands in another one, reading that captures it as well
   (`IsView.read_within`), since nothing before it matters but whether a type name or a view is
   open.
2. A block without views changes nothing but the names (`exists_read_tokens`), so a view that is
   written as a block is a view for itself (`isView_viewTokens`).
-/

namespace CmdletForge.Display.CustomDocument

open Xml (Event Piece Token charsOf piecesOf gapPieces nestAll)

theorem viewElement_ne_typeElement : viewElement ≠ typeElement := by decide

/-! ## Reading pieces -/

namespace Capture

variable {text : List Char} {k k' : Capture} {o : Nat} {gap : List Char}

def read (text : List Char) (k : Capture) (ps : List Piece) : Except Trouble Capture :=
  ps.foldlM (step text) k

/-- Pieces are read one part after the other. -/
theorem read_append (text : List Char) (k : Capture) (ps qs : List Piece) :
    k.read text (ps ++ qs) = k.read text ps >>= fun k => k.read text qs := List.foldlM_append

theorem read_append_of_ok {ps : List Piece} (h : k.read text ps = .ok k') (qs : List Piece) :
    k.read text (ps ++ qs) = k'.read text qs := by
  rw [read_append, h]
  rfl

/-- Reading some pieces and then others succeeds in two steps. -/
theorem exists_of_read_append {ps qs : List Piece} (h : k.read text (ps ++ qs) = .ok k') :
    ∃ k₁, k.read text ps = .ok k₁ ∧ k₁.read text qs = .ok k' := by
  rw [read_append] at h
  cases hps : k.read text ps with
  | error e =>
    rw [hps] at h
    contradiction
  | ok k₁ =>
    rw [hps] at h
    exact ⟨k₁, rfl, h⟩

theorem read_singleton (text : List Char) (k : Capture) (p : Piece) :
    k.read text [p] = step text k p := by
  rw [read, List.foldlM_cons]
  cases step text k p <;> rfl

/-- Text between tags counts inside a type name only. -/
theorem step_text (text : List Char) (k : Capture) (start stop : Nat) (raw : List Char) :
    step text k ⟨start, stop, .text raw⟩ =
      if k.inTypeName then
        ((Xml.unescape raw).mapError .entity).map fun cs =>
          k.addName (String.ofList (Text.trimChars cs))
      else .ok k := rfl

/-- A name that is added changes nothing but the names. -/
theorem addName_eq (k : Capture) (name : String) :
    ∃ names, k.addName name = { k with typeNames := names } := by
  unfold addName
  split
  · exact ⟨k.typeNames, rfl⟩
  · exact ⟨_, rfl⟩

/-- Outside of type names, texts do not count. -/
theorem read_gapPieces (h : k.inTypeName = false) (o : Nat) (gap : List Char) :
    k.read text (gapPieces o gap) = .ok k := by
  unfold gapPieces
  split
  · rfl
  · rw [read_singleton, step_text, h]
    rfl

/-- A text that can be read can be read wherever no more of it counts, and changes nothing but
the names. -/
theorem exists_read_gapPieces (h : k.read text (gapPieces o gap) = .ok k') (k₀ : Capture)
    (hk : k₀.inTypeName = true → k.inTypeName = true) :
    ∃ names, ∀ text₀ o₀,
      k₀.read text₀ (gapPieces o₀ gap) = .ok { k₀ with typeNames := names } := by
  by_cases hin : k₀.inTypeName = true
  · unfold gapPieces at h ⊢
    split
    next => exact ⟨k₀.typeNames, fun _ _ => rfl⟩
    next hgap =>
      simp only [if_neg hgap, read_singleton, step_text, if_pos (hk hin), if_pos hin] at h ⊢
      cases hraw : Xml.unescape gap with
      | error e =>
        rw [hraw] at h
        contradiction
      | ok cs =>
        obtain ⟨names, hnames⟩ := addName_eq k₀ (String.ofList (Text.trimChars cs))
        exact ⟨names, fun _ _ => congrArg Except.ok hnames⟩
  · exact ⟨k₀.typeNames, fun _ o₀ => read_gapPieces (Bool.eq_false_iff.mpr hin) o₀ gap⟩

/-- A text changes nothing but the names. -/
theorem eq_of_read_gapPieces (h : k.read text (gapPieces o gap) = .ok k') :
    ∃ names, k' = { k with typeNames := names } := by
  obtain ⟨names, hnames⟩ := exists_read_gapPieces h k id
  exact ⟨names, Except.ok.inj (h.symm.trans (hnames text o))⟩

/-- Reading a token: the text in front, and then the markup. -/
theorem read_pieces (text : List Char) (k : Capture) (o : Nat) (t : Token) :
    k.read text (t.pieces o) =
      k.read text (gapPieces o t.gap) >>= fun k =>
        step text k
          ⟨o + Text.width t.gap, o + Text.width t.gap + Text.width t.markup, t.event⟩ := by
  rw [Token.pieces, read_append]
  refine congrArg _ (funext fun k => read_singleton text k _)

/-- Tokens are read one by one, each from the offset behind the last. -/
theorem read_piecesOf_cons (text : List Char) (k : Capture) (o : Nat) (t : Token)
    (ts : List Token) :
    k.read text (piecesOf o (t :: ts)) =
      k.read text (t.pieces o) >>= fun k => k.read text (piecesOf (o + Text.width t.chars) ts) :=
  read_append text k _ _

/-- Reading several tokens: the first one, and then the others. -/
theorem read_piecesOf_cons_of_ok {t : Token} (h : k.read text (t.pieces o) = .ok k')
    (ts : List Token) :
    k.read text (piecesOf o (t :: ts)) =
      k'.read text (piecesOf (o + Text.width t.chars) ts) :=
  read_append_of_ok h _

end Capture

/-! ## Views for themselves -/

/-- The text of the tokens is one view for itself. -/
structure IsView (ts : List Token) : Prop where
  begins : ∃ markup event rest, ts = ⟨[], markup, event⟩ :: rest
  valid : ∀ t ∈ ts, t.Valid
  nest_eq : nestAll [] ts = some []
  captures : ∃ names, Capture.blank.read (charsOf ts) (piecesOf 0 ts) =
    .ok ⟨false, none, names, [String.ofList (charsOf ts)]⟩

/-- The captures `k₀` of a part of a text and `k` of the text: the part begins at the offset
`n`, and the views `before` were captured in front of it. -/
structure Capture.Within (n : Nat) (before : List String) (k₀ k : Capture) : Prop where
  inTypeName_eq : k.inTypeName = k₀.inTypeName
  viewStart_eq : k.viewStart = k₀.viewStart.map (n + ·)
  views_eq : k.views = before ++ k₀.views

namespace Capture

variable {n : Nat} {before : List String} {k₀ k k₀' : Capture}

/-- A slice of a part is a slice of the text. -/
theorem sliceBytes_within (front part back : List Char)
    (h : Text.sliceBytes part start stop = some view) :
    Text.sliceBytes (front ++ part ++ back) (Text.width front + start) (Text.width front + stop) =
      some view := by
  obtain ⟨x, y, rfl, hstart, hstop⟩ := Text.sliceBytes_eq_some_iff.mp h
  refine Text.sliceBytes_eq_some_iff.mpr ⟨front ++ x, y ++ back, by simp, ?_, ?_⟩
  · rw [Text.width_append, hstart]
  · rw [List.append_assoc, Text.width_append, hstop]

/-- **One piece of a part of a text** is read as when the part is read alone. -/
theorem Within.step {front part : List Char} (h : Within (Text.width front) before k₀ k)
    {p : Piece} (hstep : Capture.step part k₀ p = .ok k₀') (back : List Char) :
    ∃ k', Capture.step (front ++ part ++ back) k (p.shift (Text.width front)) = .ok k' ∧
      Within (Text.width front) before k₀' k' := by
  obtain ⟨start, stop, event⟩ := p
  cases event with
  | start content =>
    obtain rfl := Except.ok.inj hstep
    refine ⟨_, rfl, ?_⟩
    unfold startTag
    split
    · exact ⟨rfl, h.viewStart_eq, h.views_eq⟩
    · split
      · refine ⟨h.inTypeName_eq, ?_, h.views_eq⟩
        simp only [h.viewStart_eq, Piece.shift]
        cases k₀.viewStart <;> rfl
      · exact h
  | finish name =>
    simp only [Capture.step, Piece.shift] at hstep ⊢
    unfold endTag at hstep ⊢
    split at hstep
    next htype =>
      obtain rfl := Except.ok.inj hstep
      exact ⟨_, if_pos htype, rfl, h.viewStart_eq, h.views_eq⟩
    next htype =>
      rw [if_neg htype]
      split at hstep
      next hview =>
        rw [if_pos hview, h.viewStart_eq]
        cases hstart : k₀.viewStart with
        | none =>
          rw [hstart] at hstep
          obtain rfl := Except.ok.inj hstep
          exact ⟨k, rfl, h⟩
        | some a =>
          rw [hstart] at hstep
          cases hslice : Text.sliceBytes part a stop with
          | none =>
            simp only [hslice] at hstep
            contradiction
          | some view =>
            simp only [hslice] at hstep
            obtain rfl := Except.ok.inj hstep
            have hslice' := sliceBytes_within front part back hslice
            simp only [Option.map_some, hslice']
            refine ⟨_, rfl, h.inTypeName_eq, rfl, ?_⟩
            simp only [h.views_eq, List.append_assoc]
      next hview =>
        obtain rfl := Except.ok.inj hstep
        exact ⟨k, if_neg hview, h⟩
  | text raw =>
    simp only [Capture.step, Piece.shift, h.inTypeName_eq] at hstep ⊢
    split at hstep
    next hin =>
      cases hraw : Xml.unescape raw with
      | error e =>
        rw [hraw] at hstep
        contradiction
      | ok cs =>
        rw [hraw] at hstep
        obtain rfl := Except.ok.inj hstep
        refine ⟨_, if_pos hin, ?_⟩
        obtain ⟨names, hnames⟩ := addName_eq k (String.ofList (Text.trimChars cs))
        obtain ⟨names₀, hnames₀⟩ := addName_eq k₀ (String.ofList (Text.trimChars cs))
        simp only [hnames, hnames₀]
        exact ⟨h.inTypeName_eq, h.viewStart_eq, h.views_eq⟩
    next hin =>
      obtain rfl := Except.ok.inj hstep
      exact ⟨k, if_neg hin, h⟩
  | _ =>
    obtain rfl := Except.ok.inj hstep
    exact ⟨k, rfl, h⟩

/-- **Part of a text** is read as when it is read alone. -/
theorem Within.read {front part : List Char} (h : Within (Text.width front) before k₀ k)
    {ps : List Piece} (hread : k₀.read part ps = .ok k₀') (back : List Char) :
    ∃ k', k.read (front ++ part ++ back) (ps.map (Piece.shift (Text.width front))) = .ok k' ∧
      Within (Text.width front) before k₀' k' := by
  induction ps generalizing k₀ k with
  | nil =>
    obtain rfl := Except.ok.inj hread
    exact ⟨k, rfl, h⟩
  | cons p ps ih =>
    rw [← List.singleton_append] at hread
    obtain ⟨k₁, hp, hps⟩ := exists_of_read_append hread
    rw [read_singleton] at hp
    obtain ⟨k₂, hstep, hwithin⟩ := h.step hp back
    obtain ⟨k', hk', hwithin'⟩ := ih hwithin hps
    refine ⟨k', ?_, hwithin'⟩
    have hfirst := (read_singleton (front ++ part ++ back) k _).trans hstep
    rw [List.map_cons, ← List.singleton_append, read_append_of_ok hfirst, hk']

end Capture

/-- Tokens with another text in front. -/
def regap (gap : List Char) : List Token → List Token
  | [] => []
  | t :: ts => { t with gap := gap } :: ts

namespace IsView

variable {ts : List Token} (h : IsView ts)
include h

theorem charsOf_regap (gap : List Char) : charsOf (regap gap ts) = gap ++ charsOf ts := by
  obtain ⟨markup, event, rest, rfl⟩ := h.begins
  simp [regap, charsOf, Token.chars]

/-- A change of the first gap moves the pieces behind it. -/
theorem piecesOf_regap (o : Nat) (gap : List Char) :
    piecesOf o (regap gap ts) = gapPieces o gap ++ piecesOf (o + Text.width gap) ts := by
  obtain ⟨markup, event, rest, rfl⟩ := h.begins
  simp [regap, piecesOf, Token.pieces, gapPieces, Token.chars, Text.width_append, Nat.add_assoc]

theorem regap_valid {gap : List Char} (hgap : '<' ∉ gap) : ∀ t ∈ regap gap ts, t.Valid := by
  obtain ⟨markup, event, rest, rfl⟩ := h.begins
  have hvalid := h.valid
  rw [List.forall_mem_cons] at hvalid
  rw [regap, List.forall_mem_cons]
  exact ⟨⟨hgap, hvalid.1.reads⟩, hvalid.2⟩

theorem nestAll_regap (gap : List Char) (es : List (List Char)) :
    nestAll es (regap gap ts) = some es := by
  have hnest := Xml.nestAll_append_right h.nest_eq es
  obtain ⟨markup, event, rest, rfl⟩ := h.begins
  exact hnest

/-- **A view is captured wherever it stands**, as it is written. -/
theorem read_within (front gap back : List Char) {k : Capture} (htype : k.inTypeName = false)
    (hview : k.viewStart = none) :
    ∃ names, k.read (front ++ (gap ++ charsOf ts) ++ back)
      (piecesOf (Text.width front) (regap gap ts)) =
        .ok ⟨false, none, names, k.views ++ [String.ofList (charsOf ts)]⟩ := by
  obtain ⟨names₀, hcaptures⟩ := h.captures
  have hwithin : Capture.Within (Text.width (front ++ gap)) k.views .blank k :=
    ⟨htype, hview, (List.append_nil _).symm⟩
  obtain ⟨k', hread, hwithin'⟩ := hwithin.read hcaptures back
  have htext : front ++ (gap ++ charsOf ts) ++ back = front ++ gap ++ charsOf ts ++ back := by
    simp
  have hpieces : piecesOf (Text.width front + Text.width gap) ts =
      (piecesOf 0 ts).map (Piece.shift (Text.width (front ++ gap))) := by
    rw [Text.width_append, ← Xml.piecesOf_add, Nat.add_zero]
  rw [h.piecesOf_regap, Capture.read_append_of_ok (Capture.read_gapPieces htype _ _), hpieces,
    htext, hread]
  obtain ⟨inTypeName, viewStart, names, views⟩ := k'
  obtain ⟨hin, hstart, hviews⟩ := hwithin'
  simp only at hin hstart hviews
  exact ⟨names, by rw [hin, hstart, hviews]; rfl⟩

end IsView

/-! ## Views that are written as blocks -/

namespace Capture

variable {text : List Char} {k : Capture} {name : String} {gap : List Char}

theorem startTag_of_ne {name : List Char} (htype : name ≠ typeElement)
    (hview : name ≠ viewElement) (o : Nat) : k.startTag name o = k := by
  rw [startTag, if_neg htype, if_neg hview]

theorem endTag_of_ne {name : List Char} (htype : name ≠ typeElement)
    (hview : name ≠ viewElement) (o : Nat) : k.endTag text name o = .ok k := by
  rw [endTag, if_neg htype, if_neg hview]

/-- The end tag of an open view captures it. -/
theorem endTag_view {view : List Char} (hstart : k.viewStart = some start)
    (hslice : Text.sliceBytes text start stop = some view) :
    k.endTag text viewElement stop =
      .ok { k with viewStart := none, views := k.views ++ [String.ofList view] } := by
  rw [endTag, if_neg viewElement_ne_typeElement, if_pos rfl, hstart]
  simp only [hslice]

theorem read_openToken (hname : Xml.IsName name) (htype : k.inTypeName = false) (o : Nat) :
    k.read text ((Xml.openToken gap name).pieces o) =
      .ok (k.startTag name.toList (o + Text.width gap)) := by
  rw [read_pieces, read_gapPieces htype]
  exact congrArg (fun n => Except.ok (k.startTag n _)) (Xml.tagName_of_isName hname)

theorem read_closeToken (htype : k.inTypeName = false) (o : Nat) :
    k.read text ((Xml.closeToken gap name).pieces o) =
      k.endTag text name.toList
        (o + Text.width gap + Text.width (Xml.endTag name).toList) := by
  rw [read_pieces, read_gapPieces htype]
  rfl

/-- A text that was escaped can be read. -/
theorem exists_read_escape (text : List Char) (k : Capture) (o : Nat) (cs : List Char) :
    ∃ names, k.read text (gapPieces o (Xml.escape cs)) = .ok { k with typeNames := names } := by
  have hread : ∃ k', Capture.read text { k with inTypeName := true }
      (gapPieces o (Xml.escape cs)) = .ok k' := by
    unfold gapPieces
    split
    next => exact ⟨_, rfl⟩
    next => exact ⟨_, by rw [read_singleton, step_text, if_pos rfl, Xml.unescape_escape]; rfl⟩
  obtain ⟨k', hk'⟩ := hread
  obtain ⟨names, hnames⟩ := exists_read_gapPieces hk' k fun _ => rfl
  exact ⟨names, hnames text o⟩

/-- An element with a text changes nothing but the names. -/
theorem exists_read_leaf (hname : Xml.IsName name) (hview : name ≠ "View")
    (htype : k.inTypeName = false) (cs : List Char) (o : Nat) :
    ∃ names, k.read text (piecesOf o [Xml.openToken gap name,
      Xml.closeToken (Xml.escape cs) name]) = .ok { k with typeNames := names } := by
  have hview' : name.toList ≠ viewElement := mt String.toList_inj.mp hview
  rw [read_piecesOf_cons, read_openToken hname htype]
  change ∃ names, (k.startTag name.toList _).read text _ = _
  rw [piecesOf, piecesOf, List.append_nil]
  by_cases hn : name.toList = typeElement
  · rw [startTag, if_pos hn, read_pieces]
    obtain ⟨names, hread⟩ := exists_read_escape text { k with inTypeName := true } _ cs
    refine ⟨names, ?_⟩
    rw [Xml.closeToken, hread]
    change endTag text _ name.toList _ = _
    rw [endTag, if_pos hn, htype]
  · rw [startTag_of_ne hn hview', read_closeToken htype, endTag_of_ne hn hview']
    exact ⟨k.typeNames, rfl⟩

end Capture

/-- The element is no view, and no type name. -/
def IsOther (name : String) : Prop := name ≠ "View" ∧ name ≠ "TypeName"

mutual

/-- **Blocks without views** change nothing but the names. -/
theorem exists_read_tokens (level : Nat) (b : Xml.Block) (h : b.Named (· ≠ "View") IsOther)
    (text : List Char) (k : Capture) (htype : k.inTypeName = false) (o : Nat) :
    ∃ names, k.read text (piecesOf o (b.tokens level)) = .ok { k with typeNames := names } :=
  match b, h with
  | .leaf name cs, h => Capture.exists_read_leaf h.1 h.2 htype cs.toList o
  | .parent name children, h => by
    have hother : name.toList ≠ typeElement ∧ name.toList ≠ viewElement :=
      ⟨mt String.toList_inj.mp h.1.2.2, mt String.toList_inj.mp h.1.2.1⟩
    obtain ⟨names, hchildren⟩ := exists_read_tokensAll (level + 1) children h.2 text k htype
      (o + Text.width (Xml.openToken (Xml.lineGap level) name).chars)
    refine ⟨names, ?_⟩
    rw [Xml.Block.tokens, Capture.read_piecesOf_cons, Capture.read_openToken h.1.1 htype,
      Capture.startTag_of_ne hother.1 hother.2]
    change k.read text _ = _
    rw [Xml.piecesOf_append, Capture.read_append_of_ok hchildren, piecesOf, piecesOf,
      List.append_nil, Capture.read_closeToken (k := { k with typeNames := names }) htype,
      Capture.endTag_of_ne hother.1 hother.2]
  | .given _, h => h.elim

/-- The same of several blocks, one after the other. -/
theorem exists_read_tokensAll (level : Nat) (bs : List Xml.Block)
    (h : Xml.Block.AllNamed (· ≠ "View") IsOther bs) (text : List Char) (k : Capture)
    (htype : k.inTypeName = false) (o : Nat) :
    ∃ names, k.read text (piecesOf o (Xml.Block.tokensAll level bs)) =
      .ok { k with typeNames := names } :=
  match bs, h with
  | [], _ => ⟨k.typeNames, rfl⟩
  | b :: rest, h => by
    obtain ⟨names, hb⟩ := exists_read_tokens level b h.1 text k htype o
    obtain ⟨names', hrest⟩ := exists_read_tokensAll level rest h.2 text
      { k with typeNames := names } htype (o + Text.width (charsOf (b.tokens level)))
    refine ⟨names', ?_⟩
    rw [Xml.Block.tokensAll, Xml.piecesOf_append, Capture.read_append_of_ok hb, hrest]

end

/-- The tokens of a view that is written as a block, with nothing in front. -/
def viewTokens (level : Nat) (children : List Xml.Block) : List Token :=
  regap [] ((Xml.Block.parent "View" children).tokens level)

section
variable (level : Nat) {children : List Xml.Block}
  (h : Xml.Block.AllNamed (· ≠ "View") IsOther children)
include h

theorem named_view : (Xml.Block.parent "View" children).Named (fun _ => True) fun _ => True :=
  ⟨⟨by decide, trivial⟩, Xml.Block.AllNamed.mono (fun _ _ => trivial) (fun _ _ => trivial) _ h⟩

theorem charsOf_viewTokens :
    charsOf (viewTokens level children) =
      ((Xml.Block.parent "View" children).bare level).toList := by
  have hchars := Xml.Block.charsOf_tokens level _ (named_view h)
  rw [Xml.Block.tokens, Xml.charsOf_cons, Token.chars, Xml.openToken, List.append_assoc] at hchars
  exact List.append_cancel_left hchars

/-- A view that is written as a block captures itself. -/
theorem captures_viewTokens :
    ∃ names, Capture.blank.read (charsOf (viewTokens level children))
      (piecesOf 0 (viewTokens level children)) =
        .ok ⟨false, none, names, [String.ofList (charsOf (viewTokens level children))]⟩ := by
  generalize htext : charsOf (viewTokens level children) = text
  obtain ⟨names, hchildren⟩ := exists_read_tokensAll (level + 1) children h text
    ⟨false, some 0, [], []⟩ rfl (0 + Text.width (Xml.openToken [] "View").chars)
  have hslice : Text.sliceBytes text 0 (Text.width text) = some text :=
    Text.sliceBytes_eq_some_iff.mpr ⟨[], [], by simp⟩
  refine ⟨names, ?_⟩
  have htokens : viewTokens level children = Xml.openToken [] "View" ::
      (Xml.Block.tokensAll (level + 1) children ++ [Xml.closeToken (Xml.lineGap level) "View"]) :=
    rfl
  have hwidth : Text.width text = 0 + Text.width (Xml.openToken [] "View").chars +
      Text.width (charsOf (Xml.Block.tokensAll (level + 1) children)) +
      Text.width (Xml.lineGap level) + Text.width (Xml.endTag "View").toList := by
    rw [← htext, htokens]
    simp [charsOf, Token.chars, Xml.closeToken, Text.width_append, Nat.add_assoc]
  rw [htokens, Capture.read_piecesOf_cons, Capture.read_openToken (by decide) rfl]
  change Capture.read text ⟨false, some 0, [], []⟩ _ = _
  rw [Xml.piecesOf_append, Capture.read_append_of_ok hchildren, piecesOf, piecesOf,
    List.append_nil, Capture.read_closeToken rfl, ← hwidth]
  exact Capture.endTag_view rfl hslice

/-- **A view that is written as a block** is a view for itself. -/
theorem isView_viewTokens : IsView (viewTokens level children) where
  begins := ⟨_, _, _, rfl⟩
  valid := by
    have hvalid := Xml.Block.tokens_valid level _ (named_view h)
    rw [Xml.Block.tokens, List.forall_mem_cons] at hvalid
    rw [viewTokens, Xml.Block.tokens, regap, List.forall_mem_cons]
    exact ⟨⟨List.not_mem_nil, hvalid.1.reads⟩, hvalid.2⟩
  nest_eq := Xml.Block.nestAll_tokens level _ (named_view h) []
  captures := captures_viewTokens level h

end

end CmdletForge.Display.CustomDocument
