import CmdletForge.Proofs.Display.CapturedViews
import CmdletForge.Proofs.Format.Views
import CmdletForge.Proofs.Xml.Contents

/-!
# CmdletForge.Proofs.Format.Document

The text of a document, and how it is read.

1. A document is a heading, the views with a margin in front and the end of a line behind each,
   and an ending (`document_eq`).
2. The heading is read as four tokens, unless the identifier in it ends the comment that it stands
   in (`headingTokens_valid`).  What was written of a view is a view for itself (`isView_tokens`).
3. So parsing a document gives back its views: those that were generated, and behind them those
   that were captured elsewhere, as long as each of these is a view for itself (`parse_document`).
   `parse_render` says it of the document of a service.
-/

namespace CmdletForge.Format

open Display (CustomDocument)
open Display.CustomDocument
  (Capture IsView IsOther ViewsApart capture_eq_ok_iff isView_of_capture parse parse_eq_ok_iff regap
    viewTokens)
open Display.Question (ask)
open Xml (Block Token charsOf piecesOf gapPieces nestAll lineGap openToken closeToken)

/-! ## The text -/

/-- A view as it stands in a document. -/
def TableView.markup (v : TableView) : String := v.block.bare 2

/-- The lines of the start tags in front of the views. -/
def opening : String := "<Configuration>\n  <ViewDefinitions>\n"

/-- The lines of the end tags behind the views. -/
def ending : String := "  </ViewDefinitions>\n</Configuration>\n"

/-- What stands in front of the views. -/
def heading (serviceId : String) : String :=
  "<?xml version=\"1.0\" encoding=\"utf-8\"?>\n" ++
    "<!-- Generated by pscmdlet-generator for " ++ serviceId ++ " -->\n" ++ opening

/-- A view with its margin and the end of its last line. -/
def line (view : String) : String := "    " ++ view ++ "\n"

/-- **What a document is made of.** -/
theorem document_eq (serviceId : String) (views : List TableView) (custom : List String) :
    document serviceId views custom =
      heading serviceId ++ String.join ((views.map TableView.markup ++ custom).map line) ++
        ending := by
  have hlines : Block.printAll 2 (views.map TableView.block ++ custom.map Block.given) =
      String.join ((views.map TableView.markup ++ custom).map line) := by
    have hmargin : Xml.margin 2 = "    " := by decide
    rw [Block.printAll_eq_join, hmargin, List.map_append, List.map_append, List.map_map,
      List.map_map, List.map_map]
    rfl
  have hopen : opening =
      Xml.margin 0 ++ Xml.startTag "Configuration" ++ "\n" ++
        (Xml.margin 1 ++ Xml.startTag "ViewDefinitions" ++ "\n") := by decide
  have hclose : ending =
      Xml.margin 1 ++ Xml.endTag "ViewDefinitions" ++ "\n" ++
        (Xml.margin 0 ++ Xml.endTag "Configuration" ++ "\n") := by decide
  have hroot : (rootBlock views custom).print 0 =
      opening ++ Block.printAll 2 (views.map TableView.block ++ custom.map Block.given) ++
        ending := by
    rw [rootBlock, Block.print, Block.printAll, Block.printAll, Block.print, hopen, hclose]
    simp only [String.append_assoc, String.append_empty]
  unfold document heading
  rw [hroot, hlines]
  simp only [String.append_assoc]

/-- What is written of a view stands in the document. -/
theorem exists_eq_document (serviceId : String) {views : List TableView} (custom : List String)
    {v : TableView} (hv : v ∈ views) :
    ∃ front back, document serviceId views custom = front ++ v.markup ++ back := by
  obtain ⟨before, after, rfl⟩ := List.append_of_mem hv
  refine ⟨heading serviceId ++ String.join ((before.map TableView.markup).map line) ++ "    ",
    "\n" ++ String.join ((after.map TableView.markup ++ custom).map line) ++ ending, ?_⟩
  rw [document_eq]
  simp [line, String.append_assoc]

/-- What is written of the header of a column.  Only its label has to be escaped: the digits of a
width and the names of alignments are none of the characters that are. -/
theorem print_header (c : ViewColumn) (level : Nat) :
    c.header.print level =
      Xml.margin level ++ "<TableColumnHeader>\n" ++
        (Xml.margin (level + 1) ++ "<Label>" ++ Xml.escapeText c.label ++ "</Label>\n" ++
          (if 0 < c.width then
            Xml.margin (level + 1) ++ "<Width>" ++ toString c.width ++ "</Width>\n" else "") ++
          (if c.alignment = .unset then ""
            else Xml.margin (level + 1) ++ "<Alignment>" ++
              ViewColumn.alignmentName c.alignment ++ "</Alignment>\n")) ++
        (Xml.margin level ++ "</TableColumnHeader>\n") := by
  have hwidth : Xml.escapeText (toString c.width) = toString c.width := Xml.escapeText_toString _
  have halignment : Xml.escapeText (ViewColumn.alignmentName c.alignment) =
      ViewColumn.alignmentName c.alignment := by
    cases c.alignment <;> decide
  apply String.toList_injective
  unfold ViewColumn.header
  generalize toString c.width = digits at hwidth ⊢
  split <;> split <;>
    simp [Block.print, Block.printAll, Xml.startTag, Xml.endTag, hwidth, halignment]

/-! ## The heading -/

/-- What ends a comment. -/
def commentEnd : List Char := "-->".toList

/-- Characters of a comment that do not end it; `seen` are those behind its last blank. -/
theorem follow_comment {cs seen : List Char} (h : ¬ commentEnd <:+: seen.reverse ++ cs)
    (read : List Char) :
    (Xml.Mode.comment (seen ++ ' ' :: read)).follow cs =
      some (.comment (cs.reverse ++ (seen ++ ' ' :: read))) := by
  induction cs generalizing seen with
  | nil => rfl
  | cons c cs ih =>
    have hopen : ¬ (c = '>' ∧ 4 < (seen ++ ' ' :: read).length ∧
        (seen ++ ' ' :: read).take 2 = ['-', '-']) := by
      rintro ⟨rfl, -, htake⟩
      rcases seen with _ | ⟨a, _ | ⟨b, seen⟩⟩
      · simp at htake
      · simp at htake
      · obtain ⟨rfl, rfl⟩ : a = '-' ∧ b = '-' := by simpa using htake
        exact h ⟨seen.reverse, cs, by simp [commentEnd]⟩
    have hturn : (Xml.Mode.comment (seen ++ ' ' :: read)).turn c =
        .go (.comment (c :: seen ++ ' ' :: read)) := if_neg hopen
    rw [Xml.Mode.follow, hturn, List.reverse_cons, List.append_assoc]
    refine ih ?_
    rwa [List.reverse_cons, List.append_assoc]

def declarationToken : Token :=
  ⟨[], "<?xml version=\"1.0\" encoding=\"utf-8\"?>".toList, .aside⟩

def commentToken (serviceId : String) : Token :=
  ⟨['\n'], ("<!-- Generated by pscmdlet-generator for " ++ serviceId ++ " -->").toList, .aside⟩

theorem declarationToken_valid : declarationToken.Valid :=
  ⟨List.not_mem_nil, "?xml version=\"1.0\" encoding=\"utf-8\"?".toList, '>', _, rfl, rfl, rfl⟩

/-- The comment up to the identifier of the service. -/
def commentFront : List Char := "!-- Generated by pscmdlet-generator for".toList

theorem markup_commentToken (serviceId : String) :
    (commentToken serviceId).markup =
      '<' :: (commentFront ++ ' ' :: serviceId.toList ++ [' ', '-', '-']) ++ ['>'] := by
  have hfront : "<!-- Generated by pscmdlet-generator for ".toList =
      '<' :: (commentFront ++ [' ']) := by decide +kernel
  have hback : " -->".toList = [' ', '-', '-', '>'] := by decide +kernel
  rw [commentToken, String.toList_append, String.toList_append, hfront, hback]
  simp

/-- The comment ends where it should, when nothing in the identifier ends it. -/
theorem commentToken_valid {serviceId : String} (hid : ¬ commentEnd <:+: serviceId.toList) :
    (commentToken serviceId).Valid := by
  have hfront : Xml.Mode.opened.follow (commentFront ++ [' ']) =
      some (.comment ([] ++ ' ' :: commentFront.reverse)) := by decide +kernel
  have hback : ∀ read, (Xml.Mode.comment read).follow [' ', '-', '-'] =
      some (.comment ('-' :: '-' :: ' ' :: read)) := by
    intro read
    simp [Xml.Mode.follow, Xml.Mode.turn]
  have hdashes : ∃ cs, commentFront = '!' :: '-' :: '-' :: cs :=
    ⟨" Generated by pscmdlet-generator for".toList, by decide +kernel⟩
  refine ⟨by simp [commentToken], commentFront ++ ' ' :: serviceId.toList ++ [' ', '-', '-'], '>',
    .comment ('-' :: '-' :: ' ' ::
      (serviceId.toList.reverse ++ ([] ++ ' ' :: commentFront.reverse))),
    markup_commentToken serviceId, ?_, ?_⟩
  · rw [List.append_cons commentFront, Xml.Mode.follow_append, Xml.Mode.follow_append, hfront,
      Option.bind_some, follow_comment hid, Option.bind_some, hback]
  · obtain ⟨cs, hcs⟩ := hdashes
    simp [Xml.Mode.turn, hcs, commentToken]
    omega

/-- The tokens in front of the views. -/
def headingTokens (serviceId : String) : List Token :=
  [declarationToken, commentToken serviceId, openToken (lineGap 0) "Configuration",
    openToken (lineGap 1) "ViewDefinitions"]

def endingTokens : List Token :=
  [closeToken (lineGap 1) "ViewDefinitions", closeToken (lineGap 0) "Configuration"]

/-- The heading is made of tokens that are read as they are written. -/
theorem headingTokens_valid {serviceId : String} (hid : ¬ commentEnd <:+: serviceId.toList) :
    ∀ t ∈ headingTokens serviceId, t.Valid := by
  rw [headingTokens]
  simp only [List.forall_mem_cons]
  exact ⟨declarationToken_valid, commentToken_valid hid,
    Xml.openToken_valid (by decide) (Xml.not_mem_lineGap 0),
    Xml.openToken_valid (by decide) (Xml.not_mem_lineGap 1), fun _ h => by contradiction⟩

theorem endingTokens_valid : ∀ t ∈ endingTokens, t.Valid := by
  rw [endingTokens]
  simp only [List.forall_mem_cons]
  exact ⟨Xml.closeToken_valid (by decide) (Xml.not_mem_lineGap 1),
    Xml.closeToken_valid (by decide) (Xml.not_mem_lineGap 0), fun _ h => by contradiction⟩

/-- The elements that the views stand in. -/
def viewParents : List (List Char) := ["ViewDefinitions".toList, "Configuration".toList]

/-- The heading opens the elements around the views. -/
theorem nestAll_headingTokens (serviceId : String) :
    nestAll [] (headingTokens serviceId) = some viewParents := by
  have hasides : nestAll [] (headingTokens serviceId) =
      nestAll [] [openToken (lineGap 0) "Configuration",
        openToken (lineGap 1) "ViewDefinitions"] := rfl
  rw [hasides, Xml.nestAll_cons, Xml.nest_openToken (by decide), Option.bind_some,
    Xml.nestAll_cons, Xml.nest_openToken (by decide)]
  rfl

/-- The ending closes the elements around the views. -/
theorem nestAll_endingTokens : nestAll viewParents endingTokens = some [] := by
  rw [endingTokens, Xml.nestAll_cons, viewParents, Xml.nest_closeToken, Option.bind_some,
    Xml.nestAll_cons, Xml.nest_closeToken]
  rfl

/-- The text of a document, by its tokens. -/
theorem toList_document (serviceId : String) (views : List TableView) (custom : List String) :
    (document serviceId views custom).toList =
      charsOf (headingTokens serviceId) ++
        ((views.map TableView.markup ++ custom).flatMap fun view => lineGap 2 ++ view.toList) ++
        (charsOf endingTokens ++ ['\n']) := by
  have hheading : (heading serviceId).toList = charsOf (headingTokens serviceId) ++ ['\n'] := by
    have hdeclaration : "<?xml version=\"1.0\" encoding=\"utf-8\"?>\n".toList =
        declarationToken.chars ++ ['\n'] := by decide +kernel
    have hcomment : " -->\n".toList = " -->".toList ++ ['\n'] := by decide +kernel
    have hopening : '\n' :: opening.toList = (openToken (lineGap 0) "Configuration").chars ++
        ((openToken (lineGap 1) "ViewDefinitions").chars ++ ['\n']) := by decide +kernel
    have hchars : (commentToken serviceId).chars =
        '\n' :: ("<!-- Generated by pscmdlet-generator for ".toList ++ serviceId.toList ++
          " -->".toList) := by
      rw [commentToken, Token.chars, String.toList_append, String.toList_append]
      rfl
    have hnil : charsOf [] ++ ['\n'] = ['\n'] := rfl
    unfold heading
    simp only [String.toList_append, hdeclaration, hcomment]
    simp only [headingTokens, Xml.charsOf_cons, List.append_assoc, hnil, ← hopening, hchars,
      List.cons_append, List.nil_append]
  have hending : charsOf endingTokens ++ ['\n'] = '\n' :: ending.toList := by decide +kernel
  have hlines : ∀ lines : List String,
      (lines.flatMap fun view => lineGap 2 ++ view.toList) ++ ['\n'] =
        '\n' :: (String.join (lines.map line)).toList := by
    intro lines
    induction lines with
    | nil => rfl
    | cons view lines ih =>
      rw [List.flatMap_cons, List.append_assoc, ih]
      simp [line, lineGap, Xml.margin]
  rw [document_eq, String.toList_append, String.toList_append, hheading, hending, List.append_assoc,
    List.append_assoc (charsOf _) _ ('\n' :: _), List.append_cons (List.flatMap _ _), hlines]
  simp only [List.append_assoc, List.cons_append, List.nil_append]

/-! ## Views as tokens -/

/-- What stands in the element of a view. -/
def TableView.parts (v : TableView) : List Block :=
  [ .leaf "Name" v.typeName,
    .parent "ViewSelectedBy" [.leaf "TypeName" v.typeName],
    .parent "TableControl"
      [ .parent "TableHeaders" (v.columns.map ViewColumn.header),
        .parent "TableRowEntries"
          [.parent "TableRowEntry" [.parent "TableColumnItems" (v.columns.map ViewColumn.item)]]]]

def TableView.tokens (v : TableView) : List Token := viewTokens 2 v.parts

theorem named_header (c : ViewColumn) : c.header.Named (· ≠ "View") IsOther := by
  refine ⟨⟨by decide, by decide, by decide⟩, Block.allNamed_iff.mpr fun b hb => ?_⟩
  have hleaf : ∃ name text, (name = "Label" ∨ name = "Width" ∨ name = "Alignment") ∧
      b = .leaf name text := by
    simp only [List.mem_append, List.mem_singleton, List.mem_ite_nil_right,
      List.mem_ite_nil_left] at hb
    rcases hb with (rfl | ⟨-, rfl⟩) | ⟨-, rfl⟩
    · exact ⟨_, _, .inl rfl, rfl⟩
    · exact ⟨_, _, .inr (.inl rfl), rfl⟩
    · exact ⟨_, _, .inr (.inr rfl), rfl⟩
  obtain ⟨name, text, rfl | rfl | rfl, rfl⟩ := hleaf <;> exact ⟨by decide, by decide⟩

theorem named_item (c : ViewColumn) : c.item.Named (· ≠ "View") IsOther := by
  refine ⟨⟨by decide, by decide, by decide⟩, ?_, trivial⟩
  split <;> exact ⟨by decide, by decide⟩

/-- No view stands in a view. -/
theorem allNamed_parts (v : TableView) : Block.AllNamed (· ≠ "View") IsOther v.parts := by
  have hparent : ∀ {name : String} {children : List Block}, Xml.IsName name → IsOther name →
      Block.AllNamed (· ≠ "View") IsOther children →
      (Block.parent name children).Named (· ≠ "View") IsOther :=
    fun hname hother h => ⟨⟨hname, hother⟩, h⟩
  have hheaders : Block.AllNamed (· ≠ "View") IsOther (v.columns.map ViewColumn.header) :=
    Block.allNamed_iff.mpr (List.forall_mem_map.mpr fun c _ => named_header c)
  have hitems : Block.AllNamed (· ≠ "View") IsOther (v.columns.map ViewColumn.item) :=
    Block.allNamed_iff.mpr (List.forall_mem_map.mpr fun c _ => named_item c)
  refine ⟨⟨by decide, by decide⟩, hparent (by decide) ⟨by decide, by decide⟩
    ⟨⟨by decide, by decide⟩, trivial⟩, hparent (by decide) ⟨by decide, by decide⟩
    ⟨hparent (by decide) ⟨by decide, by decide⟩ hheaders, ?_, trivial⟩, trivial⟩
  exact hparent (by decide) ⟨by decide, by decide⟩ ⟨hparent (by decide) ⟨by decide, by decide⟩
    ⟨hparent (by decide) ⟨by decide, by decide⟩ hitems, trivial⟩, trivial⟩

theorem isView_tokens (v : TableView) : IsView v.tokens :=
  Display.CustomDocument.isView_viewTokens 2 (allNamed_parts v)

theorem isView_of_mem_map_tokens (views : List TableView) :
    ∀ ts ∈ views.map TableView.tokens, IsView ts :=
  List.forall_mem_map.mpr fun v _ => isView_tokens v

/-- The tokens of a view are its markup. -/
theorem charsOf_tokens (v : TableView) : charsOf v.tokens = v.markup.toList :=
  Display.CustomDocument.charsOf_viewTokens 2 (allNamed_parts v)

/-! ## Documents as tokens -/

/-- Views of a document, in their lines. -/
def lineTokens (views : List (List Token)) : List Token := views.flatMap (regap (lineGap 2))

/-- Views stand on lines of their own. -/
theorem charsOf_lineTokens {views : List (List Token)} (h : ∀ ts ∈ views, IsView ts) :
    charsOf (lineTokens views) = views.flatMap fun ts => lineGap 2 ++ charsOf ts := by
  induction views with
  | nil => rfl
  | cons ts views ih =>
    rw [List.forall_mem_cons] at h
    rw [lineTokens, List.flatMap_cons, Xml.charsOf_append, h.1.charsOf_regap, ← lineTokens, ih h.2,
      List.flatMap_cons]

theorem lineTokens_valid {views : List (List Token)} (h : ∀ ts ∈ views, IsView ts) :
    ∀ t ∈ lineTokens views, t.Valid := by
  intro t ht
  obtain ⟨ts, hts, ht⟩ := List.mem_flatMap.mp ht
  exact (h ts hts).regap_valid (Xml.not_mem_lineGap 2) t ht

theorem nestAll_lineTokens {views : List (List Token)} (h : ∀ ts ∈ views, IsView ts)
    (es : List (List Char)) : nestAll es (lineTokens views) = some es := by
  induction views with
  | nil => rfl
  | cons ts views ih =>
    rw [List.forall_mem_cons] at h
    rw [lineTokens, List.flatMap_cons, Xml.nestAll_append, h.1.nestAll_regap, Option.bind_some,
      ← lineTokens, ih h.2]

/-- The views that a document holds, one that was generated for each of `views`, and then those
that were captured. -/
def allTokens (views : List TableView) (custom : List (List Token)) : List (List Token) :=
  views.map TableView.tokens ++ custom

theorem isView_of_mem_allTokens (views : List TableView) {custom : List (List Token)}
    (hcustom : ∀ ts ∈ custom, IsView ts) :
    ∀ ts ∈ allTokens views custom, IsView ts := by
  rw [allTokens, List.forall_mem_append]
  exact ⟨isView_of_mem_map_tokens views, hcustom⟩

/-- The text of a document does not begin with a byte order mark. -/
theorem dropMark_document (serviceId : String) (views : List TableView) (custom : List String) :
    Xml.dropMark (document serviceId views custom).toList =
      (document serviceId views custom).toList := by
  rw [toList_document]
  rfl

/-- The text of a document, by its tokens. -/
theorem charsOf_document (serviceId : String) (views : List TableView)
    {custom : List (List Token)} (hcustom : ∀ ts ∈ custom, IsView ts) :
    (document serviceId views (custom.map fun ts => String.ofList (charsOf ts))).toList =
      charsOf (headingTokens serviceId) ++ charsOf (lineTokens (allTokens views custom)) ++
        (charsOf endingTokens ++ ['\n']) := by
  rw [toList_document, charsOf_lineTokens (isView_of_mem_allTokens views hcustom), allTokens,
    List.flatMap_append, List.flatMap_append, List.flatMap_map, List.flatMap_map,
    List.flatMap_map]
  simp only [charsOf_tokens, String.toList_ofList]

/-- **A document is cut into tokens**: the heading, the views and the ending. -/
theorem cuts_document {serviceId : String} (hid : ¬ commentEnd <:+: serviceId.toList)
    (views : List TableView) {custom : List (List Token)} (hcustom : ∀ ts ∈ custom, IsView ts) :
    Xml.Cuts (document serviceId views (custom.map fun ts => String.ofList (charsOf ts))).toList
      (headingTokens serviceId ++ lineTokens (allTokens views custom) ++ endingTokens)
      ['\n'] [] where
  chars_eq := by
    rw [dropMark_document, charsOf_document serviceId views hcustom, Xml.charsOf_append,
      Xml.charsOf_append, List.append_assoc _ (charsOf endingTokens)]
  valid := by
    have hviews := isView_of_mem_allTokens views hcustom
    rw [List.forall_mem_append, List.forall_mem_append]
    exact ⟨⟨headingTokens_valid hid, lineTokens_valid hviews⟩, endingTokens_valid⟩
  nest_eq := by
    have hviews := isView_of_mem_allTokens views hcustom
    rw [Xml.nestAll_append, Xml.nestAll_append, nestAll_headingTokens, Option.bind_some,
      nestAll_lineTokens hviews, Option.bind_some, nestAll_endingTokens]
  gap_free := by decide

/-! ## Parsing a document -/

theorem read_aside {text : List Char} {k : Capture} {t : Token} (h : t.event = .aside)
    (htype : k.inTypeName = false) (o : Nat) : k.read text (t.pieces o) = .ok k := by
  rw [Capture.read_pieces, Capture.read_gapPieces htype, h]
  rfl

theorem read_openToken {text : List Char} {k : Capture} {name : String} (hname : Xml.IsName name)
    (hother : IsOther name) (htype : k.inTypeName = false) (gap : List Char) (o : Nat) :
    k.read text ((openToken gap name).pieces o) = .ok k := by
  rw [Capture.read_openToken hname htype, Capture.startTag_of_ne
    (mt String.toList_inj.mp hother.2) (mt String.toList_inj.mp hother.1)]

theorem read_closeToken {text : List Char} {k : Capture} {name : String} (hother : IsOther name)
    (htype : k.inTypeName = false) (gap : List Char) (o : Nat) :
    k.read text ((closeToken gap name).pieces o) = .ok k := by
  rw [Capture.read_closeToken htype, Capture.endTag_of_ne
    (mt String.toList_inj.mp hother.2) (mt String.toList_inj.mp hother.1)]

/-- Nothing is captured in front of the views. -/
theorem read_headingTokens (text : List Char) (serviceId : String) :
    Capture.blank.read text (piecesOf 0 (headingTokens serviceId)) = .ok .blank := by
  rw [headingTokens, Capture.read_piecesOf_cons_of_ok (read_aside rfl rfl _),
    Capture.read_piecesOf_cons_of_ok (read_aside rfl rfl _),
    Capture.read_piecesOf_cons_of_ok
      (read_openToken (by decide) ⟨by decide, by decide⟩ rfl _ _),
    Capture.read_piecesOf_cons_of_ok
      (read_openToken (by decide) ⟨by decide, by decide⟩ rfl _ _)]
  rfl

/-- Nothing is captured behind the views. -/
theorem read_endingTokens {text : List Char} {k : Capture} (htype : k.inTypeName = false)
    (o : Nat) : k.read text (piecesOf o endingTokens) = .ok k := by
  rw [endingTokens,
    Capture.read_piecesOf_cons_of_ok (read_closeToken ⟨by decide, by decide⟩ htype _ _),
    Capture.read_piecesOf_cons_of_ok (read_closeToken ⟨by decide, by decide⟩ htype _ _)]
  rfl

/-- Texts that are views for themselves, by their tokens. -/
theorem exists_tokens_of_views {custom : List String}
    (h : ∀ view ∈ custom, ∃ ts, IsView ts ∧ view = String.ofList (charsOf ts)) :
    ∃ tokens : List (List Token), (∀ ts ∈ tokens, IsView ts) ∧
      custom = tokens.map fun ts => String.ofList (charsOf ts) := by
  induction custom with
  | nil => exact ⟨[], fun _ h => by contradiction, rfl⟩
  | cons view custom ih =>
    rw [List.forall_mem_cons] at h
    obtain ⟨⟨ts, hts, rfl⟩, hcustom⟩ := h
    obtain ⟨tokens, htokens, rfl⟩ := ih hcustom
    exact ⟨ts :: tokens, List.forall_mem_cons.mpr ⟨hts, htokens⟩, rfl⟩

/-- **A document is parsed as its views**: those that were generated as they were written, and
behind them those that were captured, each as it was. -/
theorem parse_document (path : Path) {serviceId : String}
    (hid : ¬ commentEnd <:+: serviceId.toList) (views : List TableView) {custom : List String}
    (hcustom : ∀ view ∈ custom, ∃ ts, IsView ts ∧ view = String.ofList (charsOf ts)) :
    ∃ names, parse path (document serviceId views custom) =
      .ok ⟨path, names, views.map TableView.markup ++ custom⟩ := by
  obtain ⟨tokens, htokens, rfl⟩ := exists_tokens_of_views hcustom
  have hcuts := cuts_document hid views htokens
  have htext := charsOf_document serviceId views htokens
  generalize document serviceId views _ = text at hcuts htext ⊢
  -- the heading, the views and the ending are read one after the other
  obtain ⟨names, hviews⟩ := Display.CustomDocument.exists_read_views
    (isView_of_mem_allTokens views htokens) (charsOf (headingTokens serviceId))
    (lineGap 2) (charsOf endingTokens ++ ['\n']) (k := .blank) rfl rfl
  rw [← lineTokens, ← htext] at hviews
  have hmarkup : (allTokens views tokens).map (fun ts => String.ofList (charsOf ts)) =
      views.map TableView.markup ++ tokens.map fun ts => String.ofList (charsOf ts) := by
    rw [allTokens, List.map_append, List.map_map]
    simp only [Function.comp_def, charsOf_tokens, String.ofList_toList]
  have hcapture : Display.CustomDocument.capture text.toList =
      .ok ⟨false, none, names, views.map TableView.markup ++
        tokens.map fun ts => String.ofList (charsOf ts)⟩ := by
    refine capture_eq_ok_iff.mpr ⟨?_, by rw [hcuts.pieces_eq], rfl⟩
    rw [hcuts.pieces_eq]
    dsimp only
    rw [List.append_assoc (headingTokens _), Xml.piecesOf_append, Xml.piecesOf_append,
      List.append_assoc, Capture.read_append_of_ok (read_headingTokens _ _), Nat.zero_add,
      List.append_assoc, Capture.read_append_of_ok hviews, hmarkup,
      Capture.read_append_of_ok (read_endingTokens rfl _), Capture.read_gapPieces rfl]
    rfl
  exact ⟨names, by rw [parse, hcapture]; rfl⟩

/-! ## Rendering -/

/-- The views of custom documents are views for themselves, when in none of the texts that the
documents come from a view lies inside of another one. -/
theorem isView_of_mem_documents {documents : List CustomDocument}
    (h : ∀ d ∈ documents, ∃ text, parse d.path text = .ok d ∧
      Xml.dropMark text.toList = text.toList ∧ ViewsApart text) :
    ∀ view ∈ documents.flatMap (·.views), ∃ ts, IsView ts ∧ view = String.ofList (charsOf ts) := by
  intro view hview
  obtain ⟨d, hd, hview⟩ := List.mem_flatMap.mp hview
  obtain ⟨text, hparse, hmark, hapart⟩ := h d hd
  obtain ⟨k, hcapture, heq⟩ := parse_eq_ok_iff.mp hparse
  have hviews : d.views = k.views := congrArg CustomDocument.views heq
  exact isView_of_capture hcapture hmark hapart view (hviews ▸ hview)

/-- **A document that was rendered is parsed as its views**: one for each that was made, and then
those of the custom documents, each as it was captured.  The identifier of the service must not
end the comment that it stands in, and in the texts of the custom documents no view may lie
inside of another one, nor may a byte order mark stand in front of them. -/
theorem parse_render {s : Service} {c : Display.Collection} {l : Display.Loaded}
    (hid : ¬ commentEnd <:+: s.id.toList) (hloaded : c.loaded = some l)
    (hdocuments : ∀ d ∈ l.documents, ∃ text, parse d.path text = .ok d ∧
      Xml.dropMark text.toList = text.toList ∧ ViewsApart text) (path : Path) :
    ∃ vs text names, (ask (views s) c).1 = .ok vs ∧ (ask (render s) c).1 = .ok text ∧
      parse path text =
        .ok ⟨path, names, vs.map TableView.markup ++ l.documents.flatMap (·.views)⟩ := by
  obtain ⟨names, hparse⟩ := parse_document path hid (viewsBy c.view s)
    (isView_of_mem_documents hdocuments)
  exact ⟨viewsBy c.view s, _, names, by rw [ask_views s hloaded],
    by rw [ask_render s hloaded, customViews], hparse⟩

/-- What is written of the view of the shop; its column is called `</View>`. -/
def shopMarkup : String :=
  "\n".intercalate
    [ "<View>",
      "      <Name>A.C</Name>",
      "      <ViewSelectedBy>",
      "        <TypeName>A.C</TypeName>",
      "      </ViewSelectedBy>",
      "      <TableControl>",
      "        <TableHeaders>",
      "          <TableColumnHeader>",
      "            <Label>&lt;/View&gt;</Label>",
      "          </TableColumnHeader>",
      "        </TableHeaders>",
      "        <TableRowEntries>",
      "          <TableRowEntry>",
      "            <TableColumnItems>",
      "              <TableColumnItem>",
      "                <PropertyName>&lt;/View&gt;</PropertyName>",
      "              </TableColumnItem>",
      "            </TableColumnItems>",
      "          </TableRowEntry>",
      "        </TableRowEntries>",
      "      </TableControl>",
      "    </View>" ]

theorem parse_render_shop :
    ∃ text names, (ask (views shop) shopRules).1 = .ok [shopView] ∧
      (ask (render shop) shopRules).1 = .ok text ∧
      parse "Shop.ps1xml" text =
        .ok ⟨"Shop.ps1xml", names, [shopMarkup, "<View><TypeName>A.B</TypeName></View>"]⟩ := by
  have hid : ¬ commentEnd <:+: shop.id.toList := by decide
  have hdocuments : ∀ d ∈ [handmade], ∃ text, parse d.path text = .ok d ∧
      Xml.dropMark text.toList = text.toList ∧ ViewsApart text := by
    rw [List.forall_mem_singleton]
    exact ⟨handmadeText, by decide +kernel, by decide +kernel, by decide +kernel⟩
  obtain ⟨vs, text, names, hviews, hrender, hparse⟩ :=
    parse_render hid loaded_shopRules hdocuments "Shop.ps1xml"
  have hshop : (ask (views shop) shopRules).1 = .ok [shopView] := by
    rw [ask_views shop loaded_shopRules]
    exact congrArg Except.ok (by decide +kernel)
  obtain rfl : vs = [shopView] := Except.ok.inj (hviews.symm.trans hshop)
  have hmarkup : [shopView].map TableView.markup ++ [handmade].flatMap (·.views) =
      [shopMarkup, "<View><TypeName>A.B</TypeName></View>"] := by decide +kernel
  rw [hmarkup] at hparse
  exact ⟨text, names, hviews, hrender, hparse⟩

end CmdletForge.Format
