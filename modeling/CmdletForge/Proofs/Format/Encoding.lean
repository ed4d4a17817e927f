import Mathlib.Data.List.Forall2
import CmdletForge.Proofs.Format.Document

/-!
# CmdletForge.Proofs.Format.Encoding

What a document tells of its views.

1. `Shows` says what is read of the element of a view: its type, and for every column one header
   and one item, in one order.  The alignment of a column is one of three, so it needs no escaping;
   all texts are free.  What was written of a view shows that view (`shows_content`).
2. The views of a document are read first, one element for each, whatever custom views stand behind
   them (`elements_document`).
3. What is read of a view tells its `facts`: all of it but the property of a column that has a
   script (`Shows.unique`).  So no two documents with different facts are one text; the custom views
   are not read for this, as they may be no markup at all.  `encodingLaw` puts this together.
-/

namespace CmdletForge.Format

open Display.CustomDocument (IsView regap)
open Xml (Block Content Token charsOf elements elementsFrom eventsOf lineGap)

/-! ## What is read of a view -/

/-- What is read of the header of a column. -/
structure HeaderShows (header : Content) (c : ViewColumn) : Prop where
  label_eq : header.texts "Label" = [c.label]
  width_eq : header.texts "Width" = if 0 < c.width then [toString c.width] else []
  alignment_eq : header.texts "Alignment" =
    if ViewColumn.alignmentName c.alignment = "" then []
    else [ViewColumn.alignmentName c.alignment]

/-- What is read of the item of a column. -/
structure ItemShows (item : Content) (c : ViewColumn) : Prop where
  /-- A script that is not empty is shown, and no property is. -/
  of_script : ∀ s, c.script = some s → s ≠ "" →
    item.texts "ScriptBlock" = [s] ∧ item.texts "PropertyName" = []
  /-- Otherwise the property is shown. -/
  of_property : c.script = none ∨ c.script = some "" →
    item.texts "ScriptBlock" = [] ∧ item.texts "PropertyName" = [c.property]

/-- What is read of a view: its type, and for each column one header and one item. -/
structure Shows (content : Content) (v : TableView) : Prop where
  name_eq : content.texts "Name" = [v.typeName]
  typeName_eq : content.texts "TypeName" = [v.typeName]
  headers : List.Forall₂ HeaderShows (content.find "TableColumnHeader") v.columns
  items : List.Forall₂ ItemShows (content.find "TableColumnItem") v.columns

/-- What stands in the element of a view. -/
def TableView.content (v : TableView) : Content := (Block.parent "View" v.parts).content 2

section
variable (c : ViewColumn) (level : Nat)

theorem find_header_self :
    (c.header.content level).find "TableColumnHeader" = [c.header.content level] := by
  rw [ViewColumn.header, Content.find_parent_self]
  split <;> split <;> simp [Content.find_leaf]

theorem find_item_self :
    (c.item.content level).find "TableColumnItem" = [c.item.content level] := by
  rw [ViewColumn.item, Content.find_parent_self]
  split <;> simp [Content.find_leaf]

/-- **The header of a column** is read back. -/
theorem headerShows_content : HeaderShows (c.header.content level) c where
  label_eq := by
    rw [ViewColumn.header, Content.texts_parent (by decide)]
    split <;> split <;> simp [Content.texts_leaf]
  width_eq := by
    rw [ViewColumn.header, Content.texts_parent (by decide)]
    split <;> split <;> simp [Content.texts_leaf]
  alignment_eq := by
    rw [ViewColumn.header, Content.texts_parent (by decide)]
    cases c.alignment <;> split <;> simp [Content.texts_leaf, ViewColumn.alignmentName]

/-- A script is taken unless it is empty. -/
theorem script?_eq_some_iff {s : String} :
    c.script? = some s ↔ c.script = some s ∧ s ≠ "" := by
  rw [ViewColumn.script?, Option.filter_eq_some_iff]
  simp

/-- **The item of a column** is read back. -/
theorem itemShows_content : ItemShows (c.item.content level) c where
  of_script s hscript hs := by
    have hshown : c.script? = some s := (script?_eq_some_iff c).mpr ⟨hscript, hs⟩
    rw [ViewColumn.item, hshown, Content.texts_parent (by decide),
      Content.texts_parent (by decide)]
    simp [Content.texts_leaf]
  of_property h := by
    have hnone : c.script? = none := by
      rw [ViewColumn.script?]
      rcases h with h | h <;> simp [h]
    rw [ViewColumn.item, hnone, Content.texts_parent (by decide),
      Content.texts_parent (by decide)]
    simp [Content.texts_leaf]

end

/-- No other elements stand in a header... -/
theorem find_header_eq_nil {name : String} (c : ViewColumn) (level : Nat)
    (h : name ∉ ["TableColumnHeader", "Label", "Width", "Alignment"]) :
    (c.header.content level).find name = [] := by
  simp only [List.mem_cons, not_or] at h
  obtain ⟨hheader, hlabel, hwidth, halignment, -⟩ := h
  rw [ViewColumn.header, Content.find_parent (Ne.symm hheader)]
  split <;> split <;>
    simp [Content.find_leaf, Ne.symm hlabel, Ne.symm hwidth, Ne.symm halignment]

/-- ...or in an item. -/
theorem find_item_eq_nil {name : String} (c : ViewColumn) (level : Nat)
    (h : name ∉ ["TableColumnItem", "ScriptBlock", "PropertyName"]) :
    (c.item.content level).find name = [] := by
  simp only [List.mem_cons, not_or] at h
  obtain ⟨hitem, hscript, hproperty, -⟩ := h
  rw [ViewColumn.item, Content.find_parent (Ne.symm hitem)]
  split <;> simp [Content.find_leaf, Ne.symm hscript, Ne.symm hproperty]

/-- The elements in a view, by those in its columns. -/
theorem find_content (v : TableView) {name : String}
    (h : name ∉ ["View", "ViewSelectedBy", "TableControl", "TableHeaders", "TableRowEntries",
      "TableRowEntry", "TableColumnItems"]) :
    v.content.find name =
      ((Block.leaf "Name" v.typeName).content 3).find name ++
        (((Block.leaf "TypeName" v.typeName).content 4).find name ++
          ((v.columns.flatMap fun c => (c.header.content 5).find name) ++
            v.columns.flatMap fun c => (c.item.content 7).find name)) := by
  simp only [List.mem_cons, not_or] at h
  obtain ⟨hview, hselected, hcontrol, hheaders, hentries, hentry, hitems, -⟩ := h
  rw [TableView.content, TableView.parts, Content.find_parent (Ne.symm hview)]
  simp only [List.flatMap_cons, List.flatMap_nil, List.append_nil,
    Content.find_parent (Ne.symm hselected), Content.find_parent (Ne.symm hcontrol),
    Content.find_parent (Ne.symm hheaders), Content.find_parent (Ne.symm hentries),
    Content.find_parent (Ne.symm hentry), Content.find_parent (Ne.symm hitems), List.flatMap_map]

/-- A view has the headers of its columns, in their order... -/
theorem find_headers (v : TableView) :
    v.content.find "TableColumnHeader" = v.columns.map fun c => c.header.content 5 := by
  have hitems : (v.columns.flatMap fun c => (c.item.content 7).find "TableColumnHeader") = [] :=
    List.flatMap_eq_nil_iff.mpr fun c _ => find_item_eq_nil c 7 (by decide)
  rw [find_content v (by decide), hitems, List.append_nil]
  simp only [find_header_self, List.map_eq_flatMap]
  simp [Content.find_leaf]

/-- ...and their items in the same one. -/
theorem find_items (v : TableView) :
    v.content.find "TableColumnItem" = v.columns.map fun c => c.item.content 7 := by
  have hheaders : (v.columns.flatMap fun c => (c.header.content 5).find "TableColumnItem") = [] :=
    List.flatMap_eq_nil_iff.mpr fun c _ => find_header_eq_nil c 5 (by decide)
  rw [find_content v (by decide), hheaders, List.nil_append]
  simp only [find_item_self, List.map_eq_flatMap]
  simp [Content.find_leaf]

/-- **A view is read back.** -/
theorem shows_content (v : TableView) : Shows v.content v where
  name_eq := by
    rw [Content.texts, find_content v (by decide)]
    simp [Content.find_leaf, Content.characters_leaf, find_header_eq_nil, find_item_eq_nil]
  typeName_eq := by
    rw [Content.texts, find_content v (by decide)]
    simp [Content.find_leaf, Content.characters_leaf, find_header_eq_nil, find_item_eq_nil]
  headers := by
    rw [find_headers, List.forall₂_map_left_iff, List.forall₂_same]
    exact fun c _ => headerShows_content c 5
  items := by
    rw [find_items, List.forall₂_map_left_iff, List.forall₂_same]
    exact fun c _ => itemShows_content c 7

/-! ## What a document tells of a view -/

/-- What is shown in the rows of a column. -/
inductive Cell where
  | script (s : String)
  | property (name : String)
  deriving DecidableEq, Repr

/-- What a document tells of a column. -/
structure ColumnFacts where
  label : String
  width : Nat
  alignment : Display.Alignment
  cell : Cell
  deriving DecidableEq, Repr

/-- What is told of a column: its property counts only when it has no script. -/
def ViewColumn.facts (c : ViewColumn) : ColumnFacts :=
  ⟨c.label, c.width, c.alignment, (c.script?.map Cell.script).getD (.property c.property)⟩

def TableView.facts (v : TableView) : String × List ColumnFacts :=
  (v.typeName, v.columns.map ViewColumn.facts)

/-- Alignments have different names. -/
theorem alignmentName_injective : Function.Injective ViewColumn.alignmentName := by
  intro a b h
  cases a <;> cases b <;> simp_all [ViewColumn.alignmentName]

section
variable {content : Content} {c d : ViewColumn}

/-- A header tells the label, the width and the alignment. -/
theorem HeaderShows.unique (h : HeaderShows content c) (h' : HeaderShows content d) :
    c.label = d.label ∧ c.width = d.width ∧ c.alignment = d.alignment := by
  refine ⟨?_, ?_, ?_⟩
  · simpa only [h.label_eq, List.cons.injEq, and_true] using h'.label_eq
  · have hwidth := h.width_eq.symm.trans h'.width_eq
    split at hwidth <;> split at hwidth
    · have hdigits := (List.cons.inj hwidth).1
      rw [Nat.toString_eq_ofList_toDigits, Nat.toString_eq_ofList_toDigits,
        String.ofList_inj] at hdigits
      rw [← Nat.ofDigitChars_ten_toDigits (n := c.width), hdigits, Nat.ofDigitChars_ten_toDigits]
    · contradiction
    · contradiction
    · omega
  · have halignment := h.alignment_eq.symm.trans h'.alignment_eq
    apply alignmentName_injective
    split at halignment <;> split at halignment
    · simp_all
    · contradiction
    · contradiction
    · simpa using halignment

/-- An item has a script or a property. -/
theorem ItemShows.cell_eq (h : ItemShows content c) :
    (∃ s, c.facts.cell = .script s ∧ content.texts "ScriptBlock" = [s]) ∨
      (c.facts.cell = .property c.property ∧ content.texts "ScriptBlock" = [] ∧
        content.texts "PropertyName" = [c.property]) := by
  cases hscript : c.script? with
  | some s =>
    obtain ⟨hs, hne⟩ := (script?_eq_some_iff c).mp hscript
    exact .inl ⟨s, by rw [ViewColumn.facts, hscript]; rfl, (h.of_script s hs hne).1⟩
  | none =>
    have hnone : c.script = none ∨ c.script = some "" := by
      cases hs : c.script with
      | none => exact .inl rfl
      | some s =>
        refine .inr (congrArg some ?_)
        by_contra hne
        rw [(script?_eq_some_iff c).mpr ⟨hs, hne⟩] at hscript
        contradiction
    exact .inr ⟨by rw [ViewColumn.facts, hscript]; rfl, h.of_property hnone⟩

/-- An item tells what is shown. -/
theorem ItemShows.unique (h : ItemShows content c) (h' : ItemShows content d) :
    c.facts.cell = d.facts.cell := by
  rcases h.cell_eq with ⟨s, hc, hs⟩ | ⟨hc, hs, hp⟩ <;>
    rcases h'.cell_eq with ⟨s', hd, hs'⟩ | ⟨hd, hs', hp'⟩ <;> rw [hs] at hs'
  · rw [hc, hd, (List.cons.inj hs').1]
  · contradiction
  · contradiction
  · rw [hp] at hp'
    rw [hc, hd, (List.cons.inj hp').1]

end

/-- The columns are told by their headers and their items. -/
theorem facts_eq_of_forall₂ {headers items : List Content} {cs ds : List ViewColumn}
    (hh : List.Forall₂ HeaderShows headers cs) (hi : List.Forall₂ ItemShows items cs)
    (hh' : List.Forall₂ HeaderShows headers ds) (hi' : List.Forall₂ ItemShows items ds) :
    cs.map ViewColumn.facts = ds.map ViewColumn.facts := by
  induction hh generalizing items ds with
  | nil =>
    cases hh'
    rfl
  | cons hc _ ih =>
    cases hh' with
    | cons hd hds =>
      cases hi with
      | cons hitem hitems =>
        cases hi' with
        | cons hitem' hitems' =>
          obtain ⟨hlabel, hwidth, halignment⟩ := hc.unique hd
          have hcell := hitem.unique hitem'
          rw [List.map_cons, List.map_cons, ih hitems hds hitems']
          simp only [ViewColumn.facts] at hcell ⊢
          rw [hlabel, hwidth, halignment, hcell]

/-- **What is read of a view tells all its facts.** -/
theorem Shows.unique {content : Content} {v w : TableView} (h : Shows content v)
    (h' : Shows content w) : v.facts = w.facts := by
  have hname : v.typeName = w.typeName := by
    simpa only [h.name_eq, List.cons.injEq, and_true] using h'.name_eq
  rw [TableView.facts, TableView.facts, hname,
    facts_eq_of_forall₂ h.headers h.items h'.headers h'.items]

/-! ## Reading a document -/

/-- The tokens of a view in its line are read as the view. -/
theorem elementsFrom_tokens (v : TableView) (gap : List Char) (rest : List Xml.Event) :
    elementsFrom "View".toList [] (eventsOf (regap gap v.tokens) ++ rest) =
      v.content :: elementsFrom "View".toList [] rest :=
  Xml.elementsFrom_element (by decide) 2 (allNamed_parts v) gap rest

/-- Views in their lines are read as the views. -/
theorem elementsFrom_lineTokens (views : List TableView) (rest : List Xml.Event) :
    elementsFrom "View".toList [] (eventsOf (lineTokens (views.map TableView.tokens)) ++ rest) =
      views.map TableView.content ++ elementsFrom "View".toList [] rest := by
  induction views with
  | nil => rfl
  | cons v views ih =>
    rw [List.map_cons, lineTokens, List.flatMap_cons, Xml.eventsOf_append, List.append_assoc,
      elementsFrom_tokens, ← lineTokens, ih]
    rfl

/-- No view begins in the heading. -/
theorem elementsFrom_headingTokens (serviceId : String) (rest : List Xml.Event) :
    elementsFrom "View".toList [] (eventsOf (headingTokens serviceId) ++ rest) =
      elementsFrom "View".toList [] rest := rfl

/-- What is written of a view is read as the view, and nothing else. -/
theorem cuts_markup (v : TableView) : Xml.Cuts v.markup.toList v.tokens [] [] where
  chars_eq := by
    rw [← charsOf_tokens, List.append_nil]
    rfl
  valid := (isView_tokens v).valid
  nest_eq := (isView_tokens v).nest_eq
  gap_free := List.not_mem_nil

/-- The markup of a view holds one view, with the content that is meant. -/
theorem elements_markup (v : TableView) : elements "View" v.markup = [v.content] := by
  rw [Xml.elements_of_cuts (cuts_markup v)]
  exact elementsFrom_tokens v [] []

/-- Views in their lines, with nothing around them. -/
theorem cuts_lineTokens (views : List TableView) :
    Xml.Cuts (charsOf (lineTokens (views.map TableView.tokens)))
      (lineTokens (views.map TableView.tokens)) [] [] where
  chars_eq := by
    rw [List.append_nil]
    cases views <;> rfl
  valid := lineTokens_valid (isView_of_mem_map_tokens views)
  nest_eq := nestAll_lineTokens (isView_of_mem_map_tokens views) []
  gap_free := List.not_mem_nil

/-- The markup of several views holds them in order. -/
theorem elements_lineTokens (views : List TableView) :
    elements "View" (String.ofList (charsOf (lineTokens (views.map TableView.tokens)))) =
      views.map TableView.content := by
  have hcuts := cuts_lineTokens views
  rw [← String.toList_ofList (l := charsOf _)] at hcuts
  rw [Xml.elements_of_cuts hcuts]
  exact (elementsFrom_lineTokens views []).trans (List.append_nil _)

/-- The text of a document, by the tokens of the views that were generated. -/
theorem toList_document_tokens (serviceId : String) (views : List TableView)
    (custom : List String) :
    (document serviceId views custom).toList =
      charsOf (headingTokens serviceId ++ lineTokens (views.map TableView.tokens)) ++
        ((custom.flatMap fun view => lineGap 2 ++ view.toList) ++
          (charsOf endingTokens ++ ['\n'])) := by
  rw [toList_document, Xml.charsOf_append, charsOf_lineTokens (isView_of_mem_map_tokens views),
    List.flatMap_append, List.flatMap_map, List.flatMap_map]
  simp only [charsOf_tokens, List.append_assoc]

/-- **The views of a document are read first**, whatever the custom ones are. -/
theorem elements_document {serviceId : String} (hid : ¬ commentEnd <:+: serviceId.toList)
    (views : List TableView) (custom : List String) :
    ∃ more, elements "View" (document serviceId views custom) =
      views.map TableView.content ++ more := by
  have hviews := isView_of_mem_map_tokens views
  have hvalid : ∀ t ∈ headingTokens serviceId ++ lineTokens (views.map TableView.tokens),
      t.Valid := List.forall_mem_append.mpr ⟨headingTokens_valid hid, lineTokens_valid hviews⟩
  have hnest : Xml.nestAll []
      (headingTokens serviceId ++ lineTokens (views.map TableView.tokens)) = some viewParents := by
    rw [Xml.nestAll_append, nestAll_headingTokens, Option.bind_some, nestAll_lineTokens hviews]
  obtain ⟨more, hmore⟩ := Xml.exists_pieces_eq
    ((dropMark_document serviceId views custom).trans
      (toList_document_tokens serviceId views custom)) hvalid hnest
  refine ⟨elementsFrom "View".toList [] (more.map (·.event)), ?_⟩
  rw [elements, hmore, List.map_append, Xml.map_event_piecesOf, Xml.eventsOf_append,
    List.append_assoc, elementsFrom_headingTokens, elementsFrom_lineTokens]

/-! ## The law of the encoding -/

/-- What is to be said of the views in a document. -/
structure EncodingLaw (serviceId : String) (views : List TableView) (custom : List String) :
    Prop where
  /-- The views stand in the document in their order, each as it is written for itself. -/
  placed : document serviceId views custom =
    heading serviceId ++ String.join ((views.map TableView.markup ++ custom).map line) ++ ending
  /-- What is written of a view is read without a fault, as one element, and shows it. -/
  decoded : ∀ v ∈ views, (Xml.pieces v.markup.toList).2 = none ∧
    ∃ content, elements "View" v.markup = [content] ∧ Shows content v
  /-- Unless the identifier of the service ends the comment that it stands in, the first elements
  that are read in the document show the views in their order. -/
  read : ¬ commentEnd <:+: serviceId.toList →
    ∃ contents more, elements "View" (document serviceId views custom) = contents ++ more ∧
      List.Forall₂ Shows contents views
  /-- Views of which other facts are told make another document. -/
  injective : ∀ views', document serviceId views custom = document serviceId views' custom →
    views.map TableView.facts = views'.map TableView.facts

/-- Views with the same contents are told the same facts. -/
theorem facts_eq_of_content_eq {views views' : List TableView}
    (h : views.map TableView.content = views'.map TableView.content) :
    views.map TableView.facts = views'.map TableView.facts := by
  rw [← List.forall₂_eq_eq_eq] at h ⊢
  rw [List.forall₂_map_left_iff, List.forall₂_map_right_iff] at h ⊢
  exact h.imp fun v w hcontent => (shows_content v).unique (hcontent ▸ shows_content w)

/-- **The law of the encoding**: a document tells all facts of its views, whatever texts they
hold. -/
theorem encodingLaw (serviceId : String) (views : List TableView) (custom : List String) :
    EncodingLaw serviceId views custom where
  placed := document_eq serviceId views custom
  decoded v _ := ⟨by rw [(cuts_markup v).pieces_eq], v.content, elements_markup v, shows_content v⟩
  read hid := by
    obtain ⟨more, hmore⟩ := elements_document hid views custom
    refine ⟨views.map TableView.content, more, hmore, ?_⟩
    rw [List.forall₂_map_left_iff, List.forall₂_same]
    exact fun v _ => shows_content v
  injective views' h := by
    have hchars := congrArg String.toList h
    rw [toList_document_tokens, toList_document_tokens, List.append_left_inj,
      Xml.charsOf_append, Xml.charsOf_append, List.append_right_inj] at hchars
    apply facts_eq_of_content_eq
    rw [← elements_lineTokens views, ← elements_lineTokens views', hchars]

end CmdletForge.Format
