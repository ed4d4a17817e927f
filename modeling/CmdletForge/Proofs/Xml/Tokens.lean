import Mathlib.Data.List.Induction
import CmdletForge.Xml.Markup

/-!
# CmdletForge.Proofs.Xml.Tokens

XML texts as sequences of markup, each piece of it with the text in front.

1. Inside of markup, what a character does is decided by what was read of that markup alone:
   `Mode.turn` says it, and `step_of_go`, `step_of_close` and `step_of_fail` are all that is known
   of `Scan.step` from here on.
2. A `Token` is a text without markup and one piece of markup behind it.  Reading tokens gives
   their pieces and opens and closes their elements, wherever they stand (`run_tokens`).
3. Whatever has been read without a fault is a sequence of tokens and the beginning of one more
   (`partition_of_run`); at the end of a text, only characters without markup are left
   (`exists_cuts_of_pieces`).
-/

namespace CmdletForge.Xml

/-! ## Inside of markup -/

/-- What a character does inside of markup. -/
inductive Turn where
  | go (m : Mode)
  | close (e : Event)
  | fail

namespace Mode

/-- What a tag is, when all of it has been read. -/
def tagEvent (read : List Char) : Event :=
  match read.reverse, read with
  | '/' :: content, _ => .finish (Scan.endName content)
  | _, '/' :: before => .empty before.reverse
  | content, _ => .start content

/-- What a character does inside of a tag. -/
def tagTurn (read : List Char) (quote : Option Char) (c : Char) : Turn :=
  match quote with
  | none =>
    if c = '>' then .close (tagEvent read)
    else if c = '"' ∨ c = '\'' then .go (.tag (c :: read) (some c))
    else .go (.tag (c :: read) none)
  | some q => .go (.tag (c :: read) (if c = q then none else some q))

/-- What a character does, by what was read of the present markup. -/
def turn (m : Mode) (c : Char) : Turn :=
  match m with
  | .text _ | .failed => .fail
  | .opened =>
    if c = '!' then .go .declared
    else if c = '?' then .go (.instruction [c])
    else tagTurn [] none c
  | .declared =>
    if c = '[' then .go (.cdata [c, '!'])
    else if c = '-' then .go (.comment [c, '!'])
    else if c = 'D' ∨ c = 'd' then .go (.doctype [c, '!'] 0)
    else .fail
  | .tag read quote => tagTurn read quote c
  | .instruction read =>
    if c = '>' ∧ read.head? = some '?' then if read.length < 2 then .fail else .close .aside
    else .go (.instruction (c :: read))
  | .comment read =>
    if c = '>' ∧ 4 < read.length ∧ read.take 2 = ['-', '-'] then
      if read.reverse.take 3 = ['!', '-', '-'] then .close .aside else .fail
    else .go (.comment (c :: read))
  | .cdata read =>
    if c = '>' ∧ read.take 2 = [']', ']'] then
      if read.reverse.take 8 = "![CDATA[".toList then
        .close (.cdata ((read.drop 2).reverse.drop 8))
      else .fail
    else .go (.cdata (c :: read))
  | .doctype read depth =>
    if c = '>' ∧ depth = 0 then
      if (read.reverse.take 8).map Text.lowerAscii ≠ "!doctype".toList then .fail
      else if (read.reverse.drop 8).all isSpace then .fail
      else .close .doctype
    else
      .go (.doctype (c :: read)
        (if c = '<' then depth + 1 else if c = '>' then depth - 1 else depth))

/-- Whether markup is being read. -/
def IsMarkup : Mode → Prop
  | .text _ | .failed => False
  | _ => True

theorem isMarkup_of_turn {m m' : Mode} {c : Char} (h : m.turn c = .go m') : m'.IsMarkup := by
  unfold turn tagTurn at h
  repeat' split at h
  all_goals first
    | contradiction
    | (cases h; trivial)

/-- What is being read behind some more characters of the present markup. -/
def follow (m : Mode) : List Char → Option Mode
  | [] => some m
  | c :: cs =>
    match m.turn c with
    | .go m' => m'.follow cs
    | _ => none

/-- Characters are followed in two parts. -/
theorem follow_append (m : Mode) (cs ds : List Char) :
    m.follow (cs ++ ds) = (m.follow cs).bind fun m' => m'.follow ds := by
  induction cs generalizing m with
  | nil => rfl
  | cons d cs ih =>
    rw [List.cons_append, follow, follow]
    cases m.turn d with
    | go m' => exact ih m'
    | _ => rfl

theorem isMarkup_of_follow {m m' : Mode} {cs : List Char} (hm : m.IsMarkup)
    (h : m.follow cs = some m') : m'.IsMarkup := by
  induction cs generalizing m with
  | nil =>
    obtain rfl := Option.some.inj h
    exact hm
  | cons c cs ih =>
    rw [follow] at h
    cases hturn : m.turn c with
    | go m₁ =>
      rw [hturn] at h
      exact ih (isMarkup_of_turn hturn) h
    | _ =>
      rw [hturn] at h
      contradiction

/-- Markup does not end as a text. -/
theorem ne_text_of_turn {m : Mode} {c : Char} (h : m.turn c = .close e) (raw : List Char) :
    e ≠ .text raw := by
  rintro rfl
  unfold turn tagTurn tagEvent at h
  repeat' split at h
  all_goals simp at h

/-- Behind a bracket the mode is one of markup. -/
theorem isMarkup_of_opened {m : Mode} {cs : List Char} (h : opened.follow cs = some m) :
    m.IsMarkup :=
  isMarkup_of_follow (show opened.IsMarkup from trivial) h

end Mode

/-! ## Open elements -/

/-- The open elements behind a piece of markup, when it may stand where the elements `es` are
open; the innermost come first. -/
def Event.nest (es : List (List Char)) : Event → Option (List (List Char))
  | .start content => some (tagName content :: es)
  | .finish name =>
    match es with
    | [] => none
    | expected :: outer => if name = expected then some outer else none
  | _ => some es

/-- What markup opens and closes does not depend on the elements further out. -/
theorem Event.nest_append_right {e : Event} {es es' : List (List Char)} (h : e.nest es = some es')
    (outer : List (List Char)) : e.nest (es ++ outer) = some (es' ++ outer) := by
  cases e with
  | finish name =>
    cases es with
    | nil => contradiction
    | cons expected rest =>
      rw [nest, Option.ite_none_right_eq_some] at h
      obtain ⟨rfl, hrest⟩ := h
      obtain rfl := Option.some.inj hrest
      exact if_pos rfl
  | _ =>
    obtain rfl := Option.some.inj h
    rfl

namespace Scan

variable {s : Scan} {c : Char}

/-- The markup that has been read ends here. -/
def close (s : Scan) (e : Event) : Scan :=
  match e with
  | .start content => { s with elements := tagName content :: s.elements }.emit e
  | .finish name =>
    match s.elements with
    | [] => s.fail (.unmatchedEnd name) s.start
    | expected :: outer =>
      if name = expected then { s with elements := outer }.emit e
      else { s with elements := outer }.fail (.mismatchedEnd expected name) s.start
  | e => s.emit e

theorem close_of_nest (h : e.nest s.elements = some es) :
    s.close e = { s with elements := es }.emit e := by
  cases e with
  | start content =>
    obtain rfl := Option.some.inj h
    rfl
  | finish name =>
    rw [close]
    cases hes : s.elements with
    | nil =>
      rw [hes] at h
      contradiction
    | cons expected outer =>
      rw [hes, Event.nest, Option.ite_none_right_eq_some] at h
      obtain ⟨rfl, houter⟩ := h
      obtain rfl := Option.some.inj houter
      simp only [if_true]
  | _ =>
    obtain rfl := Option.some.inj h
    rfl

/-- An event that leaves no fault fits the open elements. -/
theorem exists_nest_of_close (h : (s.close e).fault = none) :
    ∃ es, e.nest s.elements = some es := by
  cases e with
  | finish name =>
    rw [close] at h
    cases hes : s.elements with
    | nil =>
      rw [hes] at h
      contradiction
    | cons expected outer =>
      simp only [hes] at h
      split at h
      next heq => exact ⟨outer, if_pos heq⟩
      next => contradiction
  | _ => exact ⟨_, rfl⟩

/-! ## One character -/

def advance (s : Scan) (c : Char) : Scan := { s with offset := s.offset + c.utf8Size }

/-- What comes of a reading, but for the place of a fault. -/
def Turns (s : Scan) (t : Turn) (s' : Scan) : Prop :=
  match t with
  | .go m => s' = s.go m
  | .close e => s' = s.close e
  | .fail => ∃ t offset, s' = s.fail t offset

theorem Turns.fail (s : Scan) (t : Trouble) (offset : Nat) : s.Turns .fail (s.fail t offset) :=
  ⟨t, offset, rfl⟩

theorem Turns.ite {p : Prop} [Decidable p] {t t' : Turn} {s₁ s₂ : Scan} (h : p → s.Turns t s₁)
    (h' : ¬ p → s.Turns t' s₂) : s.Turns (if p then t else t') (if p then s₁ else s₂) := by
  by_cases hp : p
  · rw [if_pos hp, if_pos hp]
    exact h hp
  · rw [if_neg hp, if_neg hp]
    exact h' hp

theorem closeTag_eq (s : Scan) (read : List Char) :
    s.closeTag read = s.close (Mode.tagEvent read) := by
  by_cases hfinish : ∃ content, read.reverse = '/' :: content
  · obtain ⟨content, hrev⟩ := hfinish
    have hend : s.endTag content = s.close (.finish (endName content)) := by
      unfold endTag close
      cases s.elements <;> rfl
    rw [closeTag.eq_1 s read content hrev, Mode.tagEvent.eq_1 read content hrev, hend]
  have hfinish' := fun content h => hfinish ⟨content, h⟩
  by_cases hempty : ∃ before, read = '/' :: before
  · obtain ⟨before, rfl⟩ := hempty
    rw [closeTag.eq_2 s before hfinish', Mode.tagEvent.eq_2 before hfinish']
    rfl
  · have hempty' := fun before h => hempty ⟨before, h⟩
    rw [closeTag.eq_3 s read hempty' hfinish', Mode.tagEvent.eq_3 read hempty' hfinish']
    rfl

/-- The step in a tag is the turn of its mode. -/
theorem turns_tag (s : Scan) (read : List Char) (quote : Option Char) (c : Char) :
    s.Turns (Mode.tagTurn read quote c) (s.tagStep read quote c) := by
  cases quote with
  | some q => exact rfl
  | none =>
    exact .ite (fun _ => s.closeTag_eq read) fun _ => .ite (fun _ => rfl) fun _ => rfl

/-- **What a character does inside of markup.** -/
theorem turns_step (hm : s.mode.IsMarkup) (c : Char) :
    (s.advance c).Turns (s.mode.turn c) (s.step c) := by
  obtain ⟨mode, elements, start, offset, pieces, fault⟩ := s
  cases mode with
  | text | failed => exact hm.elim
  | tag read quote => exact turns_tag _ read quote c
  | opened => exact .ite (fun _ => rfl) fun _ => .ite (fun _ => rfl) fun _ => turns_tag _ [] none c
  | declared =>
    exact .ite (fun _ => rfl) fun _ => .ite (fun _ => rfl) fun _ =>
      .ite (fun _ => rfl) fun _ => .fail _ _ _
  | instruction read =>
    exact .ite (fun _ => .ite (fun _ => .fail _ _ _) fun _ => rfl) fun _ => rfl
  | comment read => exact .ite (fun _ => .ite (fun _ => rfl) fun _ => .fail _ _ _) fun _ => rfl
  | cdata read => exact .ite (fun _ => .ite (fun _ => rfl) fun _ => .fail _ _ _) fun _ => rfl
  | doctype read depth =>
    exact .ite (fun _ => .ite (fun _ => .fail _ _ _) fun _ => .ite (fun _ => .fail _ _ _)
      fun _ => rfl) fun _ => rfl

/-- A character behind some of the present markup. -/
theorem step_of_go (hm : s.mode.IsMarkup) (h : s.mode.turn c = .go m) :
    s.step c = (s.advance c).go m := by
  simpa only [Turns, h] using turns_step hm c

/-- The last character of a piece of markup. -/
theorem step_of_close (hm : s.mode.IsMarkup) (h : s.mode.turn c = .close e) :
    s.step c = (s.advance c).close e := by
  simpa only [Turns, h] using turns_step hm c

theorem step_of_fail (hm : s.mode.IsMarkup) (h : s.mode.turn c = .fail) :
    ∃ t offset, s.step c = (s.advance c).fail t offset := by
  simpa only [Turns, h] using turns_step hm c

/-- A failing turn leaves a fault. -/
theorem fault_of_fail (hm : s.mode.IsMarkup) (h : s.mode.turn c = .fail) :
    (s.step c).fault ≠ none := by
  obtain ⟨t, offset, hstep⟩ := step_of_fail hm h
  rw [hstep]
  exact Option.some_ne_none _

/-! ## Several characters -/

theorem run_cons (s : Scan) (c : Char) (cs : List Char) : s.run (c :: cs) = (s.step c).run cs := rfl

/-- Characters of the present markup. -/
theorem run_of_follow {cs : List Char} (hm : s.mode.IsMarkup) (h : s.mode.follow cs = some m) :
    s.run cs = { s with mode := m, offset := s.offset + Text.width cs } := by
  induction cs generalizing s with
  | nil =>
    obtain rfl := Option.some.inj h
    rfl
  | cons c cs ih =>
    rw [Mode.follow] at h
    cases hturn : s.mode.turn c with
    | go m₁ =>
      rw [hturn] at h
      have hstep := step_of_go hm hturn
      have hm₁ : (s.step c).mode = m₁ := by rw [hstep]; rfl
      rw [run_cons, ih (hm₁ ▸ Mode.isMarkup_of_turn hturn) (hm₁ ▸ h), hstep]
      simp [go, advance, Nat.add_assoc]
    | _ =>
      rw [hturn] at h
      contradiction

/-- Characters outside of markup. -/
theorem run_of_text {pending cs : List Char} (hs : s.mode = .text pending) (h : '<' ∉ cs) :
    s.run cs =
      { s with mode := .text (cs.reverse ++ pending), offset := s.offset + Text.width cs } := by
  induction cs generalizing s pending with
  | nil =>
    obtain ⟨mode, elements, start, offset, pieces, fault⟩ := s
    obtain rfl := hs
    rfl
  | cons c cs ih =>
    rw [List.mem_cons, not_or] at h
    have hstep : s.step c = (s.advance c).go (.text (c :: pending)) := by
      rw [step, hs]
      exact if_neg (Ne.symm h.1)
    rw [run_cons, hstep, ih rfl h.2]
    simp [go, advance, Nat.add_assoc]

/-- A fault stays. -/
theorem fault_eq_none_of_step (h : (s.step c).fault = none) : s.fault = none := by
  have hclose : ∀ e, ((s.advance c).close e).fault = none → s.fault = none := by
    intro e h
    obtain ⟨es, hnest⟩ := exists_nest_of_close h
    rw [close_of_nest hnest] at h
    exact h
  cases hmode : s.mode with
  | text pending =>
    rw [step, hmode] at h
    revert h
    dsimp only
    split <;> [split; skip] <;> exact id
  | failed =>
    rw [step, hmode] at h
    exact h
  | _ =>
    have hm : s.mode.IsMarkup := by rw [hmode]; trivial
    cases hturn : s.mode.turn c with
    | go m =>
      rw [step_of_go hm hturn] at h
      exact h
    | close e =>
      rw [step_of_close hm hturn] at h
      exact hclose e h
    | fail => exact absurd h (fault_of_fail hm hturn)

/-! ## Pieces -/

theorem suffix_pieces_close (s : Scan) (e : Event) : s.pieces <:+ (s.close e).pieces := by
  cases e with
  | finish name =>
    rw [close]
    cases s.elements with
    | nil => exact List.suffix_rfl
    | cons expected outer =>
      dsimp only
      split
      · exact List.suffix_cons _ _
      · exact List.suffix_rfl
  | _ => exact List.suffix_cons _ _

/-- A piece stays. -/
theorem suffix_pieces_step (s : Scan) (c : Char) : s.pieces <:+ (s.step c).pieces := by
  cases hmode : s.mode with
  | text pending =>
    rw [step, hmode]
    dsimp only
    split <;> [split; skip]
    · exact List.suffix_rfl
    · exact List.suffix_cons _ _
    · exact List.suffix_rfl
  | failed =>
    have hpieces : (s.step c).pieces = s.pieces := by simp only [step, hmode]
    exact hpieces ▸ List.suffix_rfl
  | _ =>
    have hm : s.mode.IsMarkup := by rw [hmode]; trivial
    cases hturn : s.mode.turn c with
    | go m =>
      rw [step_of_go hm hturn]
      exact List.suffix_rfl
    | close e =>
      rw [step_of_close hm hturn]
      exact suffix_pieces_close (s.advance c) e
    | fail =>
      obtain ⟨t, offset, hstep⟩ := step_of_fail hm hturn
      rw [hstep]
      exact List.suffix_rfl

/-- Pieces that were read stay. -/
theorem suffix_pieces_run (s : Scan) (cs : List Char) : s.pieces <:+ (s.run cs).pieces := by
  induction cs generalizing s with
  | nil => exact List.suffix_rfl
  | cons c cs ih =>
    rw [run_cons]
    exact (suffix_pieces_step s c).trans (ih (s.step c))

/-- The end of the text takes no piece away. -/
theorem suffix_pieces_finish (s : Scan) : s.pieces <:+ s.finish.pieces := by
  unfold finish
  split
  all_goals first
    | exact List.suffix_rfl
    | exact List.suffix_cons _ _

end Scan

/-! ## Tokens -/

/-- A text without markup and the markup behind it. -/
structure Token where
  gap : List Char
  /-- The markup as it is written. -/
  markup : List Char
  event : Event

/-- The piece that a text without markup is, unless it is empty; `o` is the offset of the text. -/
def gapPieces (o : Nat) (gap : List Char) : List Piece :=
  if gap = [] then [] else [⟨o, o + Text.width gap, .text gap⟩]

namespace Token

def chars (t : Token) : List Char := t.gap ++ t.markup

/-- The pieces of a token that stands at the offset `o`. -/
def pieces (o : Nat) (t : Token) : List Piece :=
  gapPieces o t.gap ++
    [⟨o + Text.width t.gap, o + Text.width t.gap + Text.width t.markup, t.event⟩]

/-- The text in front holds no markup, and the markup is read as what it is said to be. -/
structure Valid (t : Token) : Prop where
  gap_free : '<' ∉ t.gap
  reads : ∃ cs c m, t.markup = '<' :: cs ++ [c] ∧ Mode.opened.follow cs = some m ∧
    m.turn c = .close t.event

end Token

def charsOf (ts : List Token) : List Char := ts.flatMap Token.chars

/-- The pieces of tokens, the first of which stands at the offset `o`. -/
def piecesOf (o : Nat) : List Token → List Piece
  | [] => []
  | t :: ts => t.pieces o ++ piecesOf (o + Text.width t.chars) ts

/-- The open elements behind several tokens, when they may stand where the elements `es` are
open. -/
def nestAll (es : List (List Char)) (ts : List Token) : Option (List (List Char)) :=
  ts.foldlM (fun es t => t.event.nest es) es

namespace Scan

/-- Between two tokens: `o` bytes have been read. -/
def between (es : List (List Char)) (o : Nat) (ps : List Piece) : Scan :=
  ⟨.text [], es, o, o, ps, none⟩

variable {es es' : List (List Char)} {o : Nat} {ps : List Piece}

/-- Behind a text without markup. -/
theorem run_between_gap {gap : List Char} (hgap : '<' ∉ gap) :
    (between es o ps).run gap = ⟨.text gap.reverse, es, o, o + Text.width gap, ps, none⟩ := by
  rw [run_of_text rfl hgap, List.append_nil]
  rfl

/-- Behind a text without markup and the beginning of markup. -/
theorem run_between_open {gap cs : List Char} (hgap : '<' ∉ gap)
    (hcs : Mode.opened.follow cs = some m) :
    (between es o ps).run (gap ++ '<' :: cs) =
      ⟨m, es, o + Text.width gap, o + Text.width gap + Text.width ('<' :: cs),
        (gapPieces o gap).reverse ++ ps, none⟩ := by
  have hopen : ((between es o ps).run gap).step '<' =
      ⟨.opened, es, o + Text.width gap, o + Text.width gap + '<'.utf8Size,
        (gapPieces o gap).reverse ++ ps, none⟩ := by
    rw [run_between_gap hgap]
    cases gap with
    | nil => rfl
    | cons c cs =>
      have hne : (c :: cs).reverse.isEmpty = false := by simp
      simp only [step, if_true, hne]
      simp [gapPieces]
  rw [run_append, run_cons, hopen,
    run_of_follow (show Mode.IsMarkup (Scan.mode ⟨.opened, _, _, _, _, _⟩) from trivial) hcs,
    Nat.add_assoc _ '<'.utf8Size]
  rfl

/-- **Reading a token**: its pieces are added, and its element is opened or closed. -/
theorem run_token {t : Token} (h : t.Valid) (hnest : t.event.nest es = some es') :
    (between es o ps).run t.chars =
      between es' (o + Text.width t.chars) ((t.pieces o).reverse ++ ps) := by
  obtain ⟨cs, c, m, hmarkup, hfollow, hturn⟩ := h.reads
  have hm : m.IsMarkup := Mode.isMarkup_of_opened hfollow
  have hwidth : Text.width t.chars = Text.width t.gap + Text.width ('<' :: cs) + c.utf8Size := by
    rw [Token.chars, hmarkup, Text.width_append, Text.width_append, Text.width_cons c,
      Text.width_nil, Nat.add_zero, Nat.add_assoc]
  have hpieces : t.pieces o = gapPieces o t.gap ++
      [⟨o + Text.width t.gap, o + Text.width t.chars, t.event⟩] := by
    rw [Token.pieces, Token.chars, Text.width_append, Nat.add_assoc]
  rw [hpieces, hwidth, Token.chars, hmarkup, ← List.append_assoc, run_append,
    run_between_open h.gap_free hfollow, run_cons, step_of_close hm hturn, close_of_nest hnest]
  simp [between, emit, advance, run, Nat.add_assoc]

/-- **Reading tokens.** -/
theorem run_tokens {ts : List Token} (h : ∀ t ∈ ts, t.Valid) (hnest : nestAll es ts = some es') :
    (between es o ps).run (charsOf ts) =
      between es' (o + Text.width (charsOf ts)) ((piecesOf o ts).reverse ++ ps) := by
  induction ts generalizing es o ps with
  | nil =>
    obtain rfl := Option.some.inj hnest
    rfl
  | cons t ts ih =>
    obtain ⟨es₁, ht, hts⟩ := Option.bind_eq_some_iff.mp hnest
    rw [List.forall_mem_cons] at h
    rw [charsOf, List.flatMap_cons, ← charsOf, run_append, run_token h.1 ht, ih h.2 hts,
      Text.width_append, piecesOf, List.reverse_append, List.append_assoc, Nat.add_assoc]

end Scan

theorem nestAll_cons (es : List (List Char)) (t : Token) (ts : List Token) :
    nestAll es (t :: ts) = (t.event.nest es).bind fun es' => nestAll es' ts := rfl

theorem nestAll_append (es : List (List Char)) (ts us : List Token) :
    nestAll es (ts ++ us) = (nestAll es ts).bind fun es' => nestAll es' us := by
  rw [nestAll, List.foldlM_append]
  rfl

/-- What nests alone nests inside others. -/
theorem nestAll_append_right {es es' : List (List Char)} {ts : List Token}
    (h : nestAll es ts = some es') (outer : List (List Char)) :
    nestAll (es ++ outer) ts = some (es' ++ outer) := by
  induction ts generalizing es with
  | nil =>
    obtain rfl := Option.some.inj h
    rfl
  | cons t ts ih =>
    obtain ⟨es₁, ht, hts⟩ := Option.bind_eq_some_iff.mp h
    rw [nestAll_cons, Event.nest_append_right ht, Option.bind_some, ih hts]

theorem charsOf_cons (t : Token) (ts : List Token) : charsOf (t :: ts) = t.chars ++ charsOf ts :=
  List.flatMap_cons

theorem charsOf_append (ts us : List Token) : charsOf (ts ++ us) = charsOf ts ++ charsOf us :=
  List.flatMap_append

/-- The pieces of later tokens begin behind the earlier ones. -/
theorem piecesOf_append (o : Nat) (ts us : List Token) :
    piecesOf o (ts ++ us) = piecesOf o ts ++ piecesOf (o + Text.width (charsOf ts)) us := by
  induction ts generalizing o with
  | nil => rfl
  | cons t ts ih =>
    rw [List.cons_append, piecesOf, piecesOf, ih, charsOf_cons, Text.width_append,
      List.append_assoc, Nat.add_assoc]

/-- A piece that stands `n` bytes later. -/
def Piece.shift (n : Nat) (p : Piece) : Piece := ⟨n + p.start, n + p.stop, p.event⟩

theorem gapPieces_add (n o : Nat) (gap : List Char) :
    gapPieces (n + o) gap = (gapPieces o gap).map (Piece.shift n) := by
  unfold gapPieces
  split
  next => rfl
  next => simp [Piece.shift, Nat.add_assoc]

/-- The pieces of tokens do not depend on where these stand, but for the offsets. -/
theorem piecesOf_add (n o : Nat) (ts : List Token) :
    piecesOf (n + o) ts = (piecesOf o ts).map (Piece.shift n) := by
  induction ts generalizing o with
  | nil => rfl
  | cons t ts ih =>
    rw [piecesOf, piecesOf, List.map_append, ← ih, Nat.add_assoc, Token.pieces, Token.pieces,
      List.map_append, gapPieces_add]
    simp [Piece.shift, Nat.add_assoc]

/-! ## Texts as tokens -/

/-- Behind tokens at the beginning of a text. -/
theorem run_blank_tokens {ts : List Token} (hts : ∀ t ∈ ts, t.Valid)
    (hnest : nestAll [] ts = some es) (rest : List Char) :
    Scan.blank.run (charsOf ts ++ rest) =
      (Scan.between es (Text.width (charsOf ts)) (piecesOf 0 ts).reverse).run rest := by
  have hblank : Scan.blank = Scan.between [] 0 [] := rfl
  rw [hblank, Scan.run_append, Scan.run_tokens hts hnest, Nat.zero_add, List.append_nil]

/-- Behind tokens, a text without markup and the beginning of markup. -/
theorem run_blank_inside {ts : List Token} {gap read : List Char} (hts : ∀ t ∈ ts, t.Valid)
    (hnest : nestAll [] ts = some es) (hgap : '<' ∉ gap)
    (hread : Mode.opened.follow read = some m) :
    Scan.blank.run (charsOf ts ++ (gap ++ '<' :: read)) =
      ⟨m, es, Text.width (charsOf ts) + Text.width gap,
        Text.width (charsOf ts) + Text.width gap + Text.width ('<' :: read),
        (gapPieces (Text.width (charsOf ts)) gap).reverse ++ (piecesOf 0 ts).reverse, none⟩ := by
  rw [run_blank_tokens hts hnest, Scan.run_between_open hgap hread]

/-- Where a text stands that has been read without a fault: behind tokens and a text without
markup, and perhaps inside of markup. -/
inductive Partition (cs : List Char) : Prop where
  | outside (ts : List Token) (gap : List Char) (h : cs = charsOf ts ++ gap)
      (hts : ∀ t ∈ ts, t.Valid) (hnest : nestAll [] ts = some es) (hgap : '<' ∉ gap)
  | inside (ts : List Token) (gap read : List Char) (h : cs = charsOf ts ++ (gap ++ '<' :: read))
      (hts : ∀ t ∈ ts, t.Valid) (hnest : nestAll [] ts = some es) (hgap : '<' ∉ gap)
      (hread : Mode.opened.follow read = some m)

/-- **What has been read without a fault** is a sequence of tokens and the beginning of one
more. -/
theorem partition_of_run {cs : List Char} (h : (Scan.blank.run cs).fault = none) :
    Partition cs := by
  induction cs using List.reverseRecOn with
  | nil => exact .outside [] [] rfl (by simp) rfl (by simp)
  | append_singleton cs c ih =>
    rw [Scan.run_append, Scan.run_cons] at h
    cases ih (Scan.fault_eq_none_of_step h) with
    | outside ts gap hcs hts hnest hgap =>
      by_cases hc : c = '<'
      · exact .inside ts gap [] (by rw [hcs, hc, List.append_assoc]) hts hnest hgap rfl
      · refine .outside ts (gap ++ [c]) (by rw [hcs, List.append_assoc]) hts hnest ?_
        simp [hgap, Ne.symm hc]
    | @inside es m ts gap read hcs hts hnest hgap hread =>
      have hm := Mode.isMarkup_of_opened hread
      rw [hcs, run_blank_inside hts hnest hgap hread] at h
      cases hturn : m.turn c with
      | go m' =>
        refine .inside ts gap (read ++ [c]) (by simp [hcs]) hts hnest hgap (?_ : _ = some m')
        rw [Mode.follow_append, hread, Option.bind_some, Mode.follow, hturn]
        rfl
      | close e =>
        -- the markup is complete: there is one more token
        have hvalid : Token.Valid ⟨gap, '<' :: read ++ [c], e⟩ :=
          ⟨hgap, read, c, m, rfl, hread, hturn⟩
        rw [Scan.step_of_close hm hturn] at h
        obtain ⟨es', hes'⟩ := Scan.exists_nest_of_close h
        refine .outside (ts ++ [⟨gap, '<' :: read ++ [c], e⟩]) [] ?_ ?_ (?_ : _ = some es')
          (by simp)
        · rw [charsOf_append, hcs]
          simp [charsOf, Token.chars]
        · simpa using fun t ht => ht.elim (hts t) fun h => h ▸ hvalid
        · rw [nestAll_append, hnest]
          exact congrArg (Option.bind · _) hes'
      | fail => exact absurd h (Scan.fault_of_fail hm hturn)

/-! ## Whole texts -/

namespace Scan

/-- A text at the end is a piece if it is not empty. -/
theorem finish_of_text {s : Scan} {gap : List Char} (h : s.mode = .text gap.reverse) :
    s.finish.pieces = (if gap = [] then [] else [⟨s.start, s.offset, .text gap⟩]) ++ s.pieces ∧
      s.finish.fault = s.fault := by
  cases gap with
  | nil =>
    rw [finish, h]
    exact ⟨rfl, rfl⟩
  | cons c cs =>
    obtain ⟨d, ds, hd⟩ := List.exists_cons_of_ne_nil (List.reverse_ne_nil_iff.mpr
      (List.cons_ne_nil c cs))
    have hrev : (d :: ds).reverse = c :: cs := by rw [← hd, List.reverse_reverse]
    rw [finish, h, hd]
    simp only [emit, hrev]
    exact ⟨rfl, trivial⟩

/-- Markup that is not ended is a fault. -/
theorem fault_finish_of_isMarkup {s : Scan} (h : s.mode.IsMarkup) : s.finish.fault ≠ none := by
  rw [finish]
  cases hmode : s.mode with
  | text | failed =>
    rw [hmode] at h
    exact h.elim
  | _ => exact Option.some_ne_none _

/-- At the end of a text, a fault stays. -/
theorem fault_eq_none_of_finish {s : Scan} (h : s.finish.fault = none) : s.fault = none := by
  cases hmode : s.mode with
  | text pending =>
    have hpending : s.mode = .text pending.reverse.reverse := by
      rw [List.reverse_reverse, hmode]
    rw [← h, (finish_of_text hpending).2]
  | failed =>
    rw [finish, hmode] at h
    exact h
  | _ =>
    refine absurd h (fault_finish_of_isMarkup ?_)
    rw [hmode]
    trivial

end Scan

/-- The tokens `ts` and the text `gap` make the whole text `cs`, and the elements `es` stay
open. -/
structure Cuts (cs : List Char) (ts : List Token) (gap : List Char) (es : List (List Char)) :
    Prop where
  chars_eq : dropMark cs = charsOf ts ++ gap
  valid : ∀ t ∈ ts, t.Valid
  nest_eq : nestAll [] ts = some es
  gap_free : '<' ∉ gap

/-- **The pieces of a text are those of its tokens.** -/
theorem Cuts.pieces_eq (h : Cuts cs ts gap es) :
    pieces cs = (piecesOf 0 ts ++ gapPieces (Text.width (charsOf ts)) gap, none) := by
  have hstate : Scan.blank.run (dropMark cs) = ⟨.text gap.reverse, es, Text.width (charsOf ts),
      Text.width (charsOf ts) + Text.width gap, (piecesOf 0 ts).reverse, none⟩ := by
    rw [h.chars_eq, run_blank_tokens h.valid h.nest_eq, Scan.run_between_gap h.gap_free]
  obtain ⟨hpieces, hfault⟩ := Scan.finish_of_text (congrArg Scan.mode hstate)
  rw [pieces, hpieces, hfault, hstate, gapPieces]
  by_cases hgap : gap = [] <;> simp [hgap]

/-- **The pieces of the tokens in front of a text** are read first, whatever follows. -/
theorem exists_pieces_eq {cs rest : List Char} {ts : List Token}
    (hchars : dropMark cs = charsOf ts ++ rest) (hvalid : ∀ t ∈ ts, t.Valid)
    (hnest : nestAll [] ts = some es) : ∃ more, (pieces cs).1 = piecesOf 0 ts ++ more := by
  have hsuffix : (piecesOf 0 ts).reverse <:+ (Scan.blank.run (dropMark cs)).finish.pieces := by
    refine .trans ?_ (Scan.suffix_pieces_finish _)
    rw [hchars, run_blank_tokens hvalid hnest]
    exact Scan.suffix_pieces_run (.between es _ (piecesOf 0 ts).reverse) rest
  obtain ⟨more, hmore⟩ := hsuffix
  exact ⟨more.reverse, by rw [pieces, ← hmore, List.reverse_append, List.reverse_reverse]⟩

/-- **A text that is read without a fault is cut into tokens.** -/
theorem exists_cuts_of_pieces (h : (pieces cs).2 = none) : ∃ ts gap es, Cuts cs ts gap es := by
  have hrun := Scan.fault_eq_none_of_finish h
  rcases partition_of_run hrun with
    @⟨es, ts, gap, hcs, hts, hnest, hgap⟩ | @⟨es, m, ts, gap, read, hcs, hts, hnest, hgap, hread⟩
  · exact ⟨ts, gap, es, hcs, hts, hnest, hgap⟩
  · refine absurd h (Scan.fault_finish_of_isMarkup ?_)
    rw [hcs, run_blank_inside hts hnest hgap hread]
    exact Mode.isMarkup_of_opened hread

end CmdletForge.Xml
