import CmdletForge.Proofs.Text.Slices
import CmdletForge.Proofs.Xml.Tokens

/-!
# CmdletForge.Proofs.Xml.Pieces

The pieces of a text, and where they stand in it.

1. A start tag is written as its content between `<` and `>`, and an end tag as a name, and
   perhaps blanks, between `</` and `>` (`Token.Valid.written`).
2. The pieces of a text that is read without a fault make it (`covers_pieces`): each begins where
   the one in front ends.
3. So of two pieces, the one in front ends before the other begins, and the slice from the one to
   the other begins and ends as they are written (`Covers.stop_le_start`, `exists_slice`).
-/

namespace CmdletForge.Xml

/-! ## Tags as they are written -/

namespace Mode

/-- Markup that is no tag is being read. -/
def IsOther : Mode → Prop
  | .declared | .instruction _ | .comment _ | .cdata _ | .doctype _ _ => True
  | _ => False

theorem isOther_of_turn {m m' : Mode} {c : Char} (hm : m.IsOther) (h : m.turn c = .go m') :
    m'.IsOther := by
  cases m with
  | text | failed | opened | tag => exact hm.elim
  | _ =>
    unfold turn at h
    repeat' split at h
    all_goals first
      | contradiction
      | (cases h; trivial)

theorem isOther_of_follow {m m' : Mode} {cs : List Char} (hm : m.IsOther)
    (h : m.follow cs = some m') : m'.IsOther := by
  induction cs generalizing m with
  | nil =>
    obtain rfl := Option.some.inj h
    exact hm
  | cons c cs ih =>
    rw [follow] at h
    cases hturn : m.turn c with
    | go m₁ =>
      rw [hturn] at h
      exact ih (isOther_of_turn hm hturn) h
    | _ =>
      rw [hturn] at h
      contradiction

/-- Such markup does not become a tag. -/
theorem event_of_isOther {m : Mode} {c : Char} (hm : m.IsOther) (h : m.turn c = .close e) :
    (∀ content, e ≠ .start content) ∧ ∀ name, e ≠ .finish name := by
  cases m with
  | text | failed | opened | tag => exact hm.elim
  | _ =>
    unfold turn at h
    repeat' split at h
    all_goals first
      | contradiction
      | (cases h; simp)

/-- Inside of a tag, what has been read is what has been there. -/
theorem read_of_follow {read cs : List Char} {quote : Option Char}
    (h : (Mode.tag read quote).follow cs = some m) :
    ∃ quote', m = .tag (cs.reverse ++ read) quote' := by
  induction cs generalizing read quote with
  | nil =>
    obtain rfl := Option.some.inj h
    exact ⟨quote, rfl⟩
  | cons c cs ih =>
    have hgo : ∀ quote', (Mode.tag read quote).turn c = .go (.tag (c :: read) quote') →
        ∃ quote', m = .tag ((c :: cs).reverse ++ read) quote' := by
      intro quote' hturn
      rw [follow, hturn] at h
      obtain ⟨quote', hm⟩ := ih h
      exact ⟨quote', by simpa using hm⟩
    cases quote with
    | some q => exact hgo _ rfl
    | none =>
      by_cases hend : c = '>'
      · simp [follow, turn, tagTurn, hend] at h
      · by_cases hquote : c = '"' ∨ c = '\''
        · exact hgo (some c) (by simp [turn, tagTurn, hend, hquote])
        · exact hgo none (by simp [turn, tagTurn, hend, hquote])

/-- A tag is closed by `>`, outside of quotes. -/
theorem tagEvent_of_turn {read : List Char} {quote : Option Char} {c : Char}
    (h : tagTurn read quote c = .close e) : c = '>' ∧ e = tagEvent read := by
  unfold tagTurn at h
  cases quote with
  | some q => contradiction
  | none =>
    dsimp only at h
    split at h
    next hend => exact ⟨hend, (Turn.close.inj h).symm⟩
    next => split at h <;> contradiction

/-- What is between `<` and the end of a tag. -/
theorem content_of_tag {cs : List Char} {c : Char} {m : Mode} (hread : opened.follow cs = some m)
    (hturn : m.turn c = .close e)
    (he : (∃ content, e = .start content) ∨ ∃ name, e = .finish name) :
    c = '>' ∧ e = tagEvent cs.reverse := by
  have hother : ¬ m.IsOther := by
    intro hm
    obtain ⟨hstart, hfinish⟩ := event_of_isOther hm hturn
    rcases he with ⟨content, he⟩ | ⟨name, he⟩
    · exact hstart content he
    · exact hfinish name he
  cases cs with
  | nil =>
    obtain rfl := Option.some.inj hread
    unfold turn at hturn
    repeat' split at hturn
    all_goals first
      | contradiction
      | exact tagEvent_of_turn hturn
  | cons d cs =>
    have hfirst : ∀ {m'}, opened.turn d = .go m' → m'.follow cs = some m := by
      intro m' hd
      rwa [follow, hd] at hread
    by_cases hbang : d = '!'
    · have hd : opened.turn d = .go .declared := by simp [turn, hbang]
      exact absurd (isOther_of_follow (show declared.IsOther by trivial) (hfirst hd)) hother
    by_cases hquestion : d = '?'
    · have hd : opened.turn d = .go (.instruction [d]) := by simp [turn, hquestion]
      have hother' : (instruction [d]).IsOther := trivial
      exact absurd (isOther_of_follow hother' (hfirst hd)) hother
    have hd : opened.turn d = (Mode.tag [] none).turn d := by simp [turn, hbang, hquestion]
    have hread' : (Mode.tag [] none).follow (d :: cs) = some m := by
      rw [follow, ← hd]
      exact hread
    obtain ⟨quote, rfl⟩ := read_of_follow hread'
    rw [List.append_nil] at hturn
    exact tagEvent_of_turn hturn

/-- A start tag has its content as name. -/
theorem eq_of_tagEvent_start {read content : List Char} (h : tagEvent read = .start content) :
    read.reverse = content := by
  unfold tagEvent at h
  split at h
  · contradiction
  · contradiction
  · exact Event.start.inj h

/-- An end tag has its content behind the slash. -/
theorem exists_of_tagEvent_finish {read name : List Char} (h : tagEvent read = .finish name) :
    ∃ raw, read.reverse = '/' :: raw ∧ Scan.endName raw = name := by
  unfold tagEvent at h
  split at h
  next raw hraw => exact ⟨raw, hraw, Event.finish.inj h⟩
  · contradiction
  · contradiction

end Mode

/-- The text of a piece, as far as its event tells how it is written. -/
def Event.WrittenAs (part : List Char) : Event → Prop
  | .text raw => part = raw
  | .start content => part = '<' :: content ++ ['>']
  | .finish name => ∃ raw, part = '<' :: '/' :: raw ++ ['>'] ∧ Scan.endName raw = name
  | _ => True

/-- **Markup is written as its event tells.** -/
theorem Token.Valid.written {t : Token} (h : t.Valid) : t.event.WrittenAs t.markup := by
  obtain ⟨cs, c, m, hmarkup, hread, hturn⟩ := h.reads
  cases hevent : t.event with
  | text raw => exact absurd hevent (Mode.ne_text_of_turn hturn raw)
  | start content =>
    obtain ⟨rfl, he⟩ := Mode.content_of_tag hread hturn (.inl ⟨content, hevent⟩)
    have hcontent := Mode.eq_of_tagEvent_start (he.symm.trans hevent)
    rw [List.reverse_reverse] at hcontent
    show t.markup = _
    rw [hmarkup, hcontent]
  | finish name =>
    obtain ⟨rfl, he⟩ := Mode.content_of_tag hread hturn (.inr ⟨name, hevent⟩)
    obtain ⟨raw, hraw, hname⟩ := Mode.exists_of_tagEvent_finish (he.symm.trans hevent)
    rw [List.reverse_reverse] at hraw
    refine ⟨raw, ?_, hname⟩
    rw [hmarkup, hraw, List.cons_append, List.cons_append]
  | _ => trivial

/-! ## Pieces that make a text -/

/-- The pieces make the text `cs`, which stands at the offset `o`. -/
def Covers (o : Nat) : List Piece → List Char → Prop
  | [], cs => cs = []
  | p :: ps, cs => ∃ part rest, cs = part ++ rest ∧ p.start = o ∧ p.stop = o + Text.width part ∧
      p.event.WrittenAs part ∧ Covers p.stop ps rest

/-- Pieces cover a text in two parts. -/
theorem covers_append {o : Nat} {ps qs : List Piece} {cs : List Char} :
    Covers o (ps ++ qs) cs ↔
      ∃ front rest, cs = front ++ rest ∧ Covers o ps front ∧
        Covers (o + Text.width front) qs rest := by
  induction ps generalizing o cs with
  | nil => simp [Covers]
  | cons p ps ih =>
    rw [List.cons_append, Covers]
    simp only [ih, Covers]
    constructor
    · rintro ⟨part, _, rfl, hstart, hstop, hpart, front, rest, rfl, hps, hqs⟩
      refine ⟨part ++ front, rest, (List.append_assoc ..).symm, ?_, ?_⟩
      · exact ⟨part, front, rfl, hstart, hstop, hpart, hps⟩
      · rwa [Text.width_append, ← Nat.add_assoc, ← hstop]
    · rintro ⟨_, rest, rfl, ⟨part, front, rfl, hstart, hstop, hpart, hps⟩, hqs⟩
      refine ⟨part, front ++ rest, List.append_assoc .., hstart, hstop, hpart, front, rest, rfl,
        hps, ?_⟩
      rwa [Text.width_append, ← Nat.add_assoc, ← hstop] at hqs

theorem covers_gapPieces (o : Nat) (gap : List Char) : Covers o (gapPieces o gap) gap := by
  unfold gapPieces
  split
  next h => exact h
  next => exact ⟨gap, [], (List.append_nil gap).symm, rfl, rfl, rfl, rfl⟩

/-- The pieces of tokens cover their characters. -/
theorem covers_piecesOf {ts : List Token} (h : ∀ t ∈ ts, t.Valid) (o : Nat) :
    Covers o (piecesOf o ts) (charsOf ts) := by
  induction ts generalizing o with
  | nil => rfl
  | cons t ts ih =>
    rw [List.forall_mem_cons] at h
    have htoken : Covers o (t.pieces o) t.chars := by
      refine covers_append.mpr ⟨t.gap, t.markup, rfl, covers_gapPieces o t.gap, ?_⟩
      exact ⟨t.markup, [], (List.append_nil _).symm, rfl, rfl, h.1.written, rfl⟩
    rw [charsOf_cons]
    exact covers_append.mpr ⟨_, _, rfl, htoken, ih h.2 _⟩

/-- **The pieces of a text make it**, but for a byte order mark in front. -/
theorem covers_pieces {cs : List Char} (h : (pieces cs).2 = none) :
    Covers 0 (pieces cs).1 (dropMark cs) := by
  obtain ⟨ts, gap, es, hcuts⟩ := exists_cuts_of_pieces h
  have hts := covers_piecesOf hcuts.valid 0
  have hgap := covers_gapPieces (Text.width (charsOf ts)) gap
  rw [hcuts.pieces_eq, hcuts.chars_eq]
  exact covers_append.mpr ⟨_, _, rfl, hts, by rwa [Nat.zero_add]⟩

/-! ## Where pieces stand -/

namespace Covers

variable {o : Nat} {before inside after : List Piece} {p q : Piece} {cs : List Char}

/-- Of two pieces, the one in front ends before the other begins. -/
theorem stop_le_start (h : Covers o (before ++ p :: (inside ++ q :: after)) cs) :
    p.stop ≤ q.start := by
  obtain ⟨front, _, -, -, part, rest, -, -, -, -, hrest⟩ := covers_append.mp h
  obtain ⟨middle, _, -, -, _, _, -, hstart, -⟩ := covers_append.mp hrest
  omega

/-- **The slice from one piece to a later one** begins and ends with what they are written as. -/
theorem exists_slice (h : Covers 0 (before ++ p :: (inside ++ q :: after)) cs) :
    ∃ first middle last, Text.sliceBytes cs p.start q.stop = some (first ++ middle ++ last) ∧
      p.event.WrittenAs first ∧ q.event.WrittenAs last := by
  obtain ⟨front, _, rfl, -, first, _, rfl, hstart, hstop, hfirst, hrest⟩ := covers_append.mp h
  obtain ⟨middle, _, rfl, -, last, back, rfl, hstart', hstop', hlast, -⟩ := covers_append.mp hrest
  refine ⟨first, middle, last, ?_, hfirst, hlast⟩
  refine Text.sliceBytes_eq_some_iff.mpr ⟨front, back, by simp, by omega, ?_⟩
  simp only [Text.width_append]
  omega

end Covers

end CmdletForge.Xml
