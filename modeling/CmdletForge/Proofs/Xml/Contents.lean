import CmdletForge.Proofs.Xml.Blocks

/-!
# CmdletForge.Proofs.Xml.Contents

What an XML text holds.

1. `elements` are the elements of one name in a text, each with all that stands in it.  Entities
   are read, and every other character is kept, blanks included.
2. An element that is written as a block is read back as its `Block.content`, wherever it stands
   (`elementsFrom_element`).
3. `Content.find` and `Content.texts` look up what stands in an element, at any depth.
-/

namespace CmdletForge.Xml

/-! ## Contents -/

/-- Something that an XML text holds. -/
inductive Content where
  | text (s : String)
  | element (name : String) (inside : List Content)

/-- An element that is being read: its name, and what was read of its inside. -/
structure Frame where
  name : String
  inside : List Content

namespace Frame

/-- The tag of an element was read, and nothing of its inside. -/
def ofTag (tag : List Char) : Frame := ⟨String.ofList (tagName tag), []⟩

def add (f : Frame) (more : List Content) : Frame := { f with inside := f.inside ++ more }

/-- The element, when all of it was read. -/
def content (f : Frame) : Content := .element f.name f.inside

theorem add_add (f : Frame) (more later : List Content) :
    (f.add more).add later = f.add (more ++ later) := by
  rw [add, add, add, List.append_assoc]

end Frame

/-- What an event makes of the elements that are being read, the innermost first, and the
elements of the name `name` that are complete by then. -/
def grow (name : List Char) : List Frame → Event → List Frame × List Content
  | [], .start tag => (if tagName tag = name then [.ofTag tag] else [], [])
  | [], .empty tag => ([], if tagName tag = name then [(Frame.ofTag tag).content] else [])
  | [], _ => ([], [])
  | f :: outer, .start tag => (.ofTag tag :: f :: outer, [])
  | f :: outer, .empty tag => (f.add [(Frame.ofTag tag).content] :: outer, [])
  | [f], .finish _ => ([], [f.content])
  | f :: g :: outer, .finish _ => (g.add [f.content] :: outer, [])
  | f :: outer, .text raw =>
    match unescape raw with
    | .ok cs => (f.add [.text (String.ofList cs)] :: outer, [])
    | .error _ => ([], [])
  | f :: outer, .cdata cs => (f.add [.text (String.ofList cs)] :: outer, [])
  | f :: outer, _ => (f :: outer, [])

/-- The elements of a name in events, while some elements are being read. -/
def elementsFrom (name : List Char) : List Frame → List Event → List Content
  | _, [] => []
  | frames, e :: es => (grow name frames e).2 ++ elementsFrom name (grow name frames e).1 es

/-- The elements of a name in a text that are not inside of other ones of that name. -/
def elements (name text : String) : List Content :=
  elementsFrom name.toList [] ((pieces text.toList).1.map (·.event))

/-! ## The events of tokens -/

/-- The event that a text without markup is, unless it is empty. -/
def gapEvents (gap : List Char) : List Event := if gap = [] then [] else [.text gap]

def Token.events (t : Token) : List Event := gapEvents t.gap ++ [t.event]

def eventsOf (ts : List Token) : List Event := ts.flatMap Token.events

theorem eventsOf_cons (t : Token) (ts : List Token) :
    eventsOf (t :: ts) = gapEvents t.gap ++ t.event :: eventsOf ts := by
  rw [eventsOf, List.flatMap_cons, Token.events, List.append_assoc]
  rfl

/-- Events of tokens come in the order of the tokens. -/
theorem eventsOf_append (ts us : List Token) : eventsOf (ts ++ us) = eventsOf ts ++ eventsOf us :=
  List.flatMap_append

theorem map_event_gapPieces (o : Nat) (gap : List Char) :
    (gapPieces o gap).map (·.event) = gapEvents gap := by
  unfold gapPieces gapEvents
  split <;> rfl

/-- The pieces of tokens have their events. -/
theorem map_event_piecesOf (o : Nat) (ts : List Token) :
    (piecesOf o ts).map (·.event) = eventsOf ts := by
  induction ts generalizing o with
  | nil => rfl
  | cons t ts ih =>
    rw [piecesOf, List.map_append, ih, Token.pieces, List.map_append, map_event_gapPieces,
      eventsOf_cons, List.append_assoc]
    rfl

/-- The elements of a text are read from the events of its tokens. -/
theorem elements_of_cuts {text : String} {ts : List Token} {gap : List Char}
    {es : List (List Char)} (h : Cuts text.toList ts gap es) (name : String) :
    elements name text = elementsFrom name.toList [] (eventsOf ts ++ gapEvents gap) := by
  rw [elements, h.pieces_eq, List.map_append, map_event_piecesOf, map_event_gapPieces]

/-! ## What a block holds -/

mutual

/-- What an element that is written as a block holds: its texts, and the ends and the margins of
its lines. -/
def Block.content (level : Nat) : Block → Content
  | .leaf name text => .element name (if text = "" then [] else [.text text])
  | .parent name children =>
    .element name (Block.contents (level + 1) children ++
      [.text (String.ofList (lineGap level))])
  | .given text => .text text

/-- What several blocks hold, with what stands in front of each. -/
def Block.contents (level : Nat) : List Block → List Content
  | [] => []
  | b :: rest => .text (String.ofList (lineGap level)) :: b.content level ::
      Block.contents level rest

end

theorem unescape_lineGap (level : Nat) : unescape (lineGap level) = .ok (lineGap level) := by
  refine unescape_eq_self ?_
  rw [lineGap_eq, List.forall_mem_cons]
  refine ⟨rfl, fun c hc => ?_⟩
  rw [(List.mem_replicate.mp hc).2]
  rfl

section
variable (wanted : List Char) (f : Frame) (outer : List Frame) (rest : List Event)

/-- A text in an element is read with its entities. -/
theorem elementsFrom_text {raw cs : List Char} (h : unescape raw = .ok cs) :
    elementsFrom wanted (f :: outer) (.text raw :: rest) =
      elementsFrom wanted (f.add [.text (String.ofList cs)] :: outer) rest := by
  simp only [elementsFrom, grow, h, List.nil_append]

/-- The end of a line and a margin are kept. -/
theorem elementsFrom_lineGap (level : Nat) :
    elementsFrom wanted (f :: outer) (gapEvents (lineGap level) ++ rest) =
      elementsFrom wanted (f.add [.text (String.ofList (lineGap level))] :: outer) rest := by
  have hne : lineGap level ≠ [] := List.cons_ne_nil _ _
  rw [gapEvents, if_neg hne]
  exact elementsFrom_text wanted f outer rest (unescape_lineGap level)

/-- A text that was escaped is read back. -/
theorem elementsFrom_escape (text : String) :
    elementsFrom wanted (f :: outer) (gapEvents (escape text.toList) ++ rest) =
      elementsFrom wanted (f.add (if text = "" then [] else [.text text]) :: outer) rest := by
  unfold gapEvents
  by_cases h : text = ""
  · rw [if_pos h, if_pos ((escape_eq_nil_iff _).mpr (by rw [h]; rfl)), Frame.add,
      List.append_nil]
    rfl
  · have hne : escape text.toList ≠ [] := by
      rw [ne_eq, escape_eq_nil_iff, String.toList_eq_nil_iff]
      exact h
    rw [if_neg h, if_neg hne]
    refine (elementsFrom_text wanted f outer rest (unescape_escape text.toList)).trans ?_
    rw [String.ofList_toList]

/-- A start tag in an element. -/
theorem elementsFrom_start {name : String} (hname : IsName name) :
    elementsFrom wanted (f :: outer) (.start name.toList :: rest) =
      elementsFrom wanted (⟨name, []⟩ :: f :: outer) rest := by
  simp only [elementsFrom, grow, List.nil_append, Frame.ofTag, tagName_of_isName hname,
    String.ofList_toList]

/-- An end tag in an element that is not the outermost one. -/
theorem elementsFrom_finish (g : Frame) (name : List Char) :
    elementsFrom wanted (f :: g :: outer) (.finish name :: rest) =
      elementsFrom wanted (g.add [f.content] :: outer) rest := rfl

end

section
variable {leaf parent : String → Prop} (wanted : List Char)

mutual

/-- **A block in an element** is read back. -/
theorem elementsFrom_tokens (level : Nat) (b : Block) (h : b.Named leaf parent) (f : Frame)
    (outer : List Frame) (rest : List Event) :
    elementsFrom wanted (f :: outer) (eventsOf (b.tokens level) ++ rest) =
      elementsFrom wanted
        (f.add [.text (String.ofList (lineGap level)), b.content level] :: outer) rest :=
  match b, h with
  | .leaf name text, h => by
    have hevents : eventsOf (Block.tokens level (.leaf name text)) ++ rest =
        gapEvents (lineGap level) ++ .start name.toList ::
          (gapEvents (escape text.toList) ++ .finish name.toList :: rest) := by
      simp [Block.tokens, Token.events, openToken, closeToken, eventsOf]
    rw [hevents, elementsFrom_lineGap, elementsFrom_start _ _ _ _ h.1, elementsFrom_escape,
      elementsFrom_finish, Frame.add_add]
    rfl
  | .parent name children, h => by
    have hevents : eventsOf (Block.tokens level (.parent name children)) ++ rest =
        gapEvents (lineGap level) ++ .start name.toList ::
          (eventsOf (Block.tokensAll (level + 1) children) ++
            (gapEvents (lineGap level) ++ .finish name.toList :: rest)) := by
      simp [Block.tokens, Token.events, openToken, closeToken, eventsOf]
    rw [hevents, elementsFrom_lineGap, elementsFrom_start _ _ _ _ h.1.1,
      elementsFrom_tokensAll (level + 1) children h.2, elementsFrom_lineGap, elementsFrom_finish,
      Frame.add_add, Frame.add_add]
    rfl
  | .given _, h => h.elim

/-- Several blocks in an element. -/
theorem elementsFrom_tokensAll (level : Nat) (bs : List Block)
    (h : Block.AllNamed leaf parent bs) (f : Frame) (outer : List Frame) (rest : List Event) :
    elementsFrom wanted (f :: outer) (eventsOf (Block.tokensAll level bs) ++ rest) =
      elementsFrom wanted (f.add (Block.contents level bs) :: outer) rest :=
  match bs, h with
  | [], _ => by
    rw [Block.contents, Frame.add, List.append_nil]
    rfl
  | b :: bs, h => by
    rw [Block.tokensAll, eventsOf_append, List.append_assoc,
      elementsFrom_tokens level b h.1, elementsFrom_tokensAll level bs h.2, Frame.add_add]
    rfl

end

end

/-- **An element that is looked for** is read back, when it is written as a block. -/
theorem elementsFrom_element {name : String} {leaf parent : String → Prop} (hname : IsName name)
    (level : Nat) {children : List Block} (h : Block.AllNamed leaf parent children)
    (gap : List Char) (rest : List Event) :
    elementsFrom name.toList [] (eventsOf (openToken gap name ::
        (Block.tokensAll (level + 1) children ++ [closeToken (lineGap level) name])) ++ rest) =
      (Block.parent name children).content level :: elementsFrom name.toList [] rest := by
  have hgap : ∀ es, elementsFrom name.toList [] (gapEvents gap ++ es) =
      elementsFrom name.toList [] es := by
    intro es
    unfold gapEvents
    split <;> rfl
  have hstart : ∀ es, elementsFrom name.toList [] (.start name.toList :: es) =
      elementsFrom name.toList [⟨name, []⟩] es := by
    intro es
    simp only [elementsFrom, grow, tagName_of_isName hname, if_true, List.nil_append,
      Frame.ofTag, String.ofList_toList]
  have hevents : eventsOf (openToken gap name ::
        (Block.tokensAll (level + 1) children ++ [closeToken (lineGap level) name])) ++ rest =
      gapEvents gap ++ .start name.toList :: (eventsOf (Block.tokensAll (level + 1) children) ++
        (gapEvents (lineGap level) ++ .finish name.toList :: rest)) := by
    simp [Token.events, openToken, closeToken, eventsOf]
  rw [hevents, hgap, hstart, elementsFrom_tokensAll _ _ _ h, elementsFrom_lineGap, Frame.add_add]
  rfl

/-! ## Looking up -/

mutual

/-- The elements of a name in a content, itself included, in their order. -/
def Content.find (name : String) : Content → List Content
  | .text _ => []
  | .element n inside =>
    (if n = name then [.element n inside] else []) ++ Content.findAll name inside

/-- The elements of a name in several contents. -/
def Content.findAll (name : String) : List Content → List Content
  | [] => []
  | c :: rest => c.find name ++ Content.findAll name rest

end

mutual

def Content.characters : Content → String
  | .text s => s
  | .element _ inside => Content.charactersAll inside

def Content.charactersAll : List Content → String
  | [] => ""
  | c :: rest => c.characters ++ Content.charactersAll rest

end

/-- The characters of the elements of a name. -/
def Content.texts (name : String) (c : Content) : List String :=
  (c.find name).map Content.characters

namespace Content

variable {name : String}

theorem findAll_append (name : String) (cs ds : List Content) :
    findAll name (cs ++ ds) = findAll name cs ++ findAll name ds := by
  induction cs with
  | nil => rfl
  | cons c cs ih => rw [List.cons_append, findAll, findAll, ih, List.append_assoc]

theorem charactersAll_append (cs ds : List Content) :
    charactersAll (cs ++ ds) = charactersAll cs ++ charactersAll ds := by
  induction cs with
  | nil => simp [charactersAll]
  | cons c cs ih => rw [List.cons_append, charactersAll, charactersAll, ih, String.append_assoc]

/-- Elements of blocks are found block by block. -/
theorem findAll_contents (name : String) (level : Nat) (bs : List Block) :
    findAll name (Block.contents level bs) = bs.flatMap fun b => (b.content level).find name := by
  induction bs with
  | nil => rfl
  | cons b bs ih =>
    rw [Block.contents, findAll, findAll, ih, find, List.nil_append, List.flatMap_cons]

/-- What is looked up in a block with children, when it is not that block. -/
theorem find_parent {n : String} (h : n ≠ name) (level : Nat) (bs : List Block) :
    ((Block.parent n bs).content level).find name =
      bs.flatMap fun b => (b.content (level + 1)).find name := by
  rw [Block.content, find, if_neg h, List.nil_append, findAll_append, findAll_contents]
  simp [findAll, find]

/-- What is looked up in a block with children, when it is that block. -/
theorem find_parent_self (level : Nat) (bs : List Block) :
    ((Block.parent name bs).content level).find name =
      (Block.parent name bs).content level ::
        bs.flatMap fun b => (b.content (level + 1)).find name := by
  rw [Block.content, find, if_pos rfl, findAll_append, findAll_contents]
  simp [findAll, find]

/-- A leaf is found under its own name. -/
theorem find_leaf (n text : String) (level : Nat) :
    ((Block.leaf n text).content level).find name =
      if n = name then [(Block.leaf n text).content level] else [] := by
  rw [Block.content, find]
  by_cases h : text = "" <;> simp [h, findAll, find]

/-- The characters of a leaf are its text. -/
theorem characters_leaf (n text : String) (level : Nat) :
    ((Block.leaf n text).content level).characters = text := by
  rw [Block.content, characters]
  by_cases h : text = ""
  · rw [if_pos h, h]
    rfl
  · rw [if_neg h, charactersAll, characters, charactersAll, String.append_empty]

/-- The texts in a block with children are those in the children. -/
theorem texts_parent {n : String} (h : n ≠ name) (level : Nat) (bs : List Block) :
    ((Block.parent n bs).content level).texts name =
      bs.flatMap fun b => (b.content (level + 1)).texts name := by
  simp only [texts, find_parent h, List.map_flatMap]

/-- An element with a text has that text. -/
theorem texts_leaf (n text : String) (level : Nat) :
    ((Block.leaf n text).content level).texts name = if n = name then [text] else [] := by
  rw [texts, find_leaf]
  split
  · rw [List.map_singleton, characters_leaf]
  · rfl

end Content

end CmdletForge.Xml
