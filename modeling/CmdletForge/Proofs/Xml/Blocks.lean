import Mathlib.Data.List.TakeWhile
import CmdletForge.Proofs.Xml.Entities
import CmdletForge.Proofs.Xml.Tokens
import CmdletForge.Xml.Block

/-!
# CmdletForge.Proofs.Xml.Blocks

Elements that are written line by line, as tokens.

1. A tag is a token whose text in front is the end of the line before it and its margin, or, for
   the end tag behind a text, that text.  `Block.tokens` are the tokens of a block.
2. Their characters are what is printed (`charsOf_tokens`), so a printed block is read as its
   tokens, and they close what they open (`nestAll_tokens`).
3. What is asked of a block is asked of the names of its elements: `Block.Named`.
-/

namespace CmdletForge.Xml

/-! ## Names -/

/-- A name that is made of letters. -/
def IsName (name : String) : Prop := name.toList ≠ [] ∧ ∀ c ∈ name.toList, c.isAlpha = true

-- the characters of the name are looked at, and not all that there are
instance : Decidable (IsName name) :=
  @instDecidableAnd _ _ inferInstance (List.decidableBAll _ _)

theorem ne_of_isAlpha {c d : Char} (hc : c.isAlpha = true) (hd : d.isAlpha = false) : c ≠ d := by
  rintro rfl
  rw [hc] at hd
  contradiction

theorem isSpace_of_isAlpha {c : Char} (hc : c.isAlpha = true) : isSpace c = false := by
  have h : ∀ d, d.isAlpha = false → (c == d) = false := fun d hd =>
    beq_eq_false_iff_ne.mpr (ne_of_isAlpha hc hd)
  simp [isSpace, h]

section
variable {name : String} (h : IsName name)
include h

theorem tagName_of_isName : tagName name.toList = name.toList :=
  List.takeWhile_eq_self_iff.mpr fun c hc => by simp [isSpace_of_isAlpha (h.2 c hc)]

theorem endName_of_isName : Scan.endName name.toList = name.toList := by
  obtain ⟨cs, c, hname⟩ := (List.eq_nil_or_concat name.toList).resolve_left h.1
  rw [List.concat_eq_append] at hname
  have hc := isSpace_of_isAlpha (h.2 c (by rw [hname]; simp))
  rw [hname, Scan.endName, trimEnd]
  simp [hc]

end

/-! ## Tags -/

def openToken (gap : List Char) (name : String) : Token :=
  ⟨gap, (startTag name).toList, .start name.toList⟩

def closeToken (gap : List Char) (name : String) : Token :=
  ⟨gap, (endTag name).toList, .finish name.toList⟩

/-- Letters go on a tag. -/
theorem follow_tag {name : List Char} (h : ∀ c ∈ name, c.isAlpha = true) (read : List Char) :
    (Mode.tag read none).follow name = some (.tag (name.reverse ++ read) none) := by
  induction name generalizing read with
  | nil => rfl
  | cons c cs ih =>
    rw [List.forall_mem_cons] at h
    have hturn : (Mode.tag read none).turn c = .go (.tag (c :: read) none) := by
      have hend : c ≠ '>' := ne_of_isAlpha h.1 rfl
      have hquote : ¬ (c = '"' ∨ c = '\'') :=
        not_or.mpr ⟨ne_of_isAlpha h.1 rfl, ne_of_isAlpha h.1 rfl⟩
      simp [Mode.turn, Mode.tagTurn, hend, hquote]
    rw [Mode.follow, hturn, List.reverse_cons, List.append_assoc]
    exact ih h.2 (c :: read)

/-- A tag of letters is a start tag. -/
theorem tagEvent_eq_start {read : List Char} (h : ∀ c ∈ read, c.isAlpha = true) :
    Mode.tagEvent read = .start read.reverse := by
  have hslash : '/' ∉ read := fun hmem => ne_of_isAlpha (d := '/') (h '/' hmem) rfl rfl
  unfold Mode.tagEvent
  split
  next heq => exact absurd (List.mem_reverse.mp (heq ▸ List.mem_cons_self)) hslash
  next => exact absurd List.mem_cons_self hslash
  next => rfl

/-- A tag that begins with a slash is an end tag. -/
theorem tagEvent_eq_finish (content : List Char) :
    Mode.tagEvent (content.reverse ++ ['/']) = .finish (Scan.endName content) := by
  unfold Mode.tagEvent
  simp

section
variable {name : String} {gap : List Char} (h : IsName name) (hgap : '<' ∉ gap)
include h hgap

theorem openToken_valid : (openToken gap name).Valid := by
  refine ⟨hgap, name.toList, '>', .tag name.toList.reverse none, ?_, ?_, ?_⟩
  · simp [openToken, startTag]
  · obtain ⟨c, cs, hname⟩ := List.exists_cons_of_ne_nil h.1
    have hc := h.2 c (by rw [hname]; simp)
    have hcs : ∀ d ∈ cs, d.isAlpha = true := fun d hd => h.2 d (by rw [hname]; simp [hd])
    have hturn : Mode.opened.turn c = .go (.tag [c] none) := by
      have hne : ∀ d, d.isAlpha = false → c ≠ d := fun d hd => ne_of_isAlpha hc hd
      simp [Mode.turn, Mode.tagTurn, hne]
    rw [hname, Mode.follow, hturn, List.reverse_cons]
    exact follow_tag hcs [c]
  · have hevent : Mode.tagEvent name.toList.reverse = .start name.toList := by
      rw [tagEvent_eq_start fun c hc => h.2 c (List.mem_reverse.mp hc), List.reverse_reverse]
    exact congrArg Turn.close hevent

theorem closeToken_valid : (closeToken gap name).Valid := by
  refine ⟨hgap, '/' :: name.toList, '>', .tag (name.toList.reverse ++ ['/']) none, ?_, ?_, ?_⟩
  · simp [closeToken, endTag]
  · exact follow_tag h.2 ['/']
  · have hevent : Mode.tagEvent (name.toList.reverse ++ ['/']) = .finish name.toList := by
      rw [tagEvent_eq_finish, endName_of_isName h]
    exact congrArg Turn.close hevent

end

/-- A start tag opens its element. -/
theorem nest_openToken (h : IsName name) (gap : List Char) (es : List (List Char)) :
    (openToken gap name).event.nest es = some (name.toList :: es) :=
  congrArg (some <| · :: es) (tagName_of_isName h)

/-- An end tag closes its element. -/
theorem nest_closeToken (name : String) (gap : List Char) (es : List (List Char)) :
    (closeToken gap name).event.nest (name.toList :: es) = some es :=
  if_pos rfl

/-! ## Blocks -/

/-- What stands in front of a line: the end of the line before it, and its margin. -/
def lineGap (level : Nat) : List Char := '\n' :: (margin level).toList

theorem lineGap_eq (level : Nat) : lineGap level = '\n' :: List.replicate (2 * level) ' ' := by
  rw [lineGap, margin, String.toList_ofList]

theorem not_mem_lineGap (level : Nat) : '<' ∉ lineGap level := by
  rw [lineGap_eq, List.mem_cons, List.mem_replicate]
  simp

/-- The digits of a number are not escaped. -/
theorem escapeText_toString (n : Nat) : escapeText (toString n) = toString n := by
  have hdigits : ∀ c ∈ (toString n).toList, escapeChar c = [c] := by
    intro c hc
    have hdigit : c.isDigit = true := by
      rw [Nat.toString_eq_ofList_toDigits, String.toList_ofList] at hc
      exact Nat.isDigit_of_mem_toDigits (by decide) (by decide) hc
    have hne : ∀ d, d.isDigit = false → c ≠ d := by
      rintro d hd rfl
      simp [hdigit] at hd
    simp [escapeChar, hne]
  rw [escapeText, escape_eq_self hdigits, String.ofList_toList]

/-- A block without the margin in front and the end of its last line. -/
def Block.bare (level : Nat) : Block → String
  | .leaf name text => startTag name ++ escapeText text ++ endTag name
  | .parent name children =>
    startTag name ++ "\n" ++ Block.printAll (level + 1) children ++ (margin level ++ endTag name)
  | .given text => text

theorem Block.print_eq (level : Nat) (b : Block) :
    b.print level = margin level ++ b.bare level ++ "\n" := by
  cases b <;> simp only [print, bare, String.append_assoc]

/-- Blocks are printed one behind the other. -/
theorem Block.printAll_eq_join (level : Nat) (bs : List Block) :
    printAll level bs = String.join (bs.map fun b => margin level ++ b.bare level ++ "\n") := by
  induction bs with
  | nil => rfl
  | cons b bs ih => rw [printAll, print_eq, ih, List.map_cons, String.join_cons]

mutual

/-- The tokens of a block, of which none is given as it is. -/
def Block.tokens (level : Nat) : Block → List Token
  | .leaf name text => [openToken (lineGap level) name, closeToken (escape text.toList) name]
  | .parent name children =>
    openToken (lineGap level) name ::
      (Block.tokensAll (level + 1) children ++ [closeToken (lineGap level) name])
  | .given _ => []

def Block.tokensAll (level : Nat) : List Block → List Token
  | [] => []
  | b :: rest => b.tokens level ++ Block.tokensAll level rest

end

mutual

/-- The elements have names, those with a text and those with children as they should be, and
nothing is given as it is. -/
def Block.Named (leaf parent : String → Prop) : Block → Prop
  | .leaf name _ => IsName name ∧ leaf name
  | .parent name children =>
    (IsName name ∧ parent name) ∧ Block.AllNamed leaf parent children
  | .given _ => False

/-- Several blocks with such names. -/
def Block.AllNamed (leaf parent : String → Prop) : List Block → Prop
  | [] => True
  | b :: rest => b.Named leaf parent ∧ Block.AllNamed leaf parent rest

end

section
variable {leaf parent : String → Prop}

theorem Block.allNamed_iff {bs : List Block} :
    AllNamed leaf parent bs ↔ ∀ b ∈ bs, b.Named leaf parent := by
  induction bs with
  | nil => simp [AllNamed]
  | cons b bs ih => rw [AllNamed, ih, List.forall_mem_cons]

mutual

theorem Block.Named.mono {leaf' parent' : String → Prop} (hleaf : ∀ name, leaf name → leaf' name)
    (hparent : ∀ name, parent name → parent' name) (b : Block) (h : b.Named leaf parent) :
    b.Named leaf' parent' :=
  match b, h with
  | .leaf name _, h => ⟨h.1, hleaf name h.2⟩
  | .parent name children, h =>
    ⟨⟨h.1.1, hparent name h.1.2⟩, AllNamed.mono hleaf hparent children h.2⟩
  | .given _, h => h.elim

theorem Block.AllNamed.mono {leaf' parent' : String → Prop}
    (hleaf : ∀ name, leaf name → leaf' name) (hparent : ∀ name, parent name → parent' name)
    (bs : List Block) (h : AllNamed leaf parent bs) : AllNamed leaf' parent' bs :=
  match bs, h with
  | [], _ => trivial
  | b :: rest, h => ⟨Named.mono hleaf hparent b h.1, AllNamed.mono hleaf hparent rest h.2⟩

end

mutual

/-- **What is printed of a block is its tokens.** -/
theorem Block.charsOf_tokens (level : Nat) (b : Block) (h : b.Named leaf parent) :
    charsOf (b.tokens level) = lineGap level ++ (b.bare level).toList :=
  match b, h with
  | .leaf name text, _ => by
    simp [charsOf, tokens, Token.chars, openToken, closeToken, bare, escapeText]
  | .parent name children, h => by
    have hchildren := charsOf_tokensAll (level + 1) children h.2
    calc charsOf (tokens level (.parent name children))
      _ = lineGap level ++ (startTag name).toList ++
            (charsOf (tokensAll (level + 1) children) ++ ['\n']) ++
            (margin level).toList ++ (endTag name).toList := by
          simp [charsOf, tokens, Token.chars, openToken, closeToken, lineGap]
      _ = lineGap level ++ (bare level (.parent name children)).toList := by
          rw [hchildren]
          simp [bare]
  | .given _, h => h.elim

/-- The tokens of blocks are their lines. -/
theorem Block.charsOf_tokensAll (level : Nat) (bs : List Block) (h : AllNamed leaf parent bs) :
    charsOf (tokensAll level bs) ++ ['\n'] = '\n' :: (printAll level bs).toList :=
  match bs, h with
  | [], _ => rfl
  | b :: rest, h => by
    have hb := charsOf_tokens level b h.1
    have hrest := charsOf_tokensAll level rest h.2
    rw [tokensAll, charsOf_append, List.append_assoc, hrest, hb, printAll, print_eq]
    simp [lineGap]

end

mutual

/-- The tokens of a block are read as they are written. -/
theorem Block.tokens_valid (level : Nat) (b : Block) (h : b.Named leaf parent) :
    ∀ t ∈ b.tokens level, t.Valid :=
  match b, h with
  | .leaf name text, h => by
    rw [tokens, List.forall_mem_cons, List.forall_mem_singleton]
    exact ⟨openToken_valid h.1 (not_mem_lineGap level), closeToken_valid h.1 (not_mem_escape _)⟩
  | .parent name children, h => by
    have hname := h.1.1
    have hchildren := tokensAll_valid (level + 1) children h.2
    rw [tokens, List.forall_mem_cons, List.forall_mem_append, List.forall_mem_singleton]
    exact ⟨openToken_valid hname (not_mem_lineGap level), hchildren,
      closeToken_valid hname (not_mem_lineGap level)⟩
  | .given _, h => h.elim

theorem Block.tokensAll_valid (level : Nat) (bs : List Block) (h : AllNamed leaf parent bs) :
    ∀ t ∈ tokensAll level bs, t.Valid :=
  match bs, h with
  | [], _ => by simp [tokensAll]
  | b :: rest, h => by
    rw [tokensAll, List.forall_mem_append]
    exact ⟨tokens_valid level b h.1, tokensAll_valid level rest h.2⟩

end

mutual

/-- **A block closes what it opens.** -/
theorem Block.nestAll_tokens (level : Nat) (b : Block) (h : b.Named leaf parent)
    (es : List (List Char)) : nestAll es (b.tokens level) = some es :=
  match b, h with
  | .leaf name text, h => by
    rw [tokens, nestAll_cons, nest_openToken h.1, Option.bind_some, nestAll_cons,
      nest_closeToken]
    rfl
  | .parent name children, h => by
    rw [tokens, nestAll_cons, nest_openToken h.1.1, Option.bind_some, nestAll_append,
      nestAll_tokensAll (level + 1) children h.2, Option.bind_some, nestAll_cons, nest_closeToken]
    rfl
  | .given _, h => h.elim

/-- Blocks close what they open. -/
theorem Block.nestAll_tokensAll (level : Nat) (bs : List Block) (h : AllNamed leaf parent bs)
    (es : List (List Char)) : nestAll es (tokensAll level bs) = some es :=
  match bs, h with
  | [], _ => rfl
  | b :: rest, h => by
    rw [tokensAll, nestAll_append, nestAll_tokens level b h.1, Option.bind_some]
    exact nestAll_tokensAll level rest h.2 es

end

end

end CmdletForge.Xml
