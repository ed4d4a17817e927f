import CmdletForge.Format.Generate
import CmdletForge.Proofs.Display.Eligibility

/-!
# CmdletForge.Proofs.Format.Views

Which types of a service get a view.

1. Asking for the views asks for each type whether it is eligible.  Such questions freeze lists
   and change nothing of what is to be seen, so all types are decided by what the collection
   shows at the beginning (`ask_views`), and rendering puts the same views in the document
   (`ask_render`).
2. Once documents are loaded, an eligible type is declared by none of them and is not among the
   types to leave out; it is in a namespace that is not left out, or it is among the types to
   keep.  The lists that decided this are frozen then (`settled_after_questions`).
3. `viewLaw` puts this together for every history of a collection.
-/

namespace CmdletForge.Format

open Display (Collection CustomDocument Manifest View isInternal namespaceOf)
open Display.Question (ask ask_pure ask_bind ask_get ask_ite)

/-! ## Decisions -/

/-- The columns of the view of a type, by what a collection shows. -/
def shownColumns (v : View) (s : Service) (typeName : String) : List ViewColumn :=
  (Display.columnsFor v.blocks typeName s.propertiesOf?).map ViewColumn.ofColumn

/-- What becomes of a type, by what a collection shows. -/
def decisionBy (v : View) (s : Service) (typeName : String) : Decision :=
  if v.isEligible typeName then
    if (shownColumns v s typeName).isEmpty then .columnless typeName
    else .shown ⟨typeName, shownColumns v s typeName⟩
  else .skipped typeName

/-- The types of a service that are eligible and have columns. -/
def shownTypes (v : View) (s : Service) : List String :=
  (s.types.map (·.name)).filter fun typeName =>
    v.isEligible typeName && !(shownColumns v s typeName).isEmpty

/-- The views of a service, by what a collection shows. -/
def viewsBy (v : View) (s : Service) : List TableView :=
  (shownTypes v s).map fun typeName => ⟨typeName, shownColumns v s typeName⟩

/-- The views are those of the types that are shown. -/
theorem filterMap_view_decisionBy (v : View) (s : Service) (names : List String) :
    (names.map (decisionBy v s)).filterMap Decision.view? =
      (names.filter fun typeName =>
        v.isEligible typeName && !(shownColumns v s typeName).isEmpty).map
          fun typeName => ⟨typeName, shownColumns v s typeName⟩ := by
  induction names with
  | nil => rfl
  | cons typeName names ih =>
    rw [List.map_cons, List.filterMap_cons, List.filter_cons, ih, decisionBy]
    cases v.isEligible typeName with
    | false => rfl
    | true => cases (shownColumns v s typeName).isEmpty <;> rfl

theorem isQuestion_typeEligible (typeName : String) :
    (Display.Operation.typeEligible typeName).IsQuestion := ⟨fun _ => rfl, rfl, rfl⟩

theorem ask_isTypeEligible (typeName : String) (c : Collection) :
    ask (Collection.isTypeEligible typeName) c =
      (c.view.isEligible typeName, c.next (.typeEligible typeName)) := by
  rw [Collection.ask_isTypeEligible, c.next_of_question (isQuestion_typeEligible typeName)]
  rfl

/-- What becomes of a type: its eligibility is asked for, and nothing else happens. -/
theorem ask_decisionFor (s : Service) (t : AnswerType) (c : Collection) :
    ask (decisionFor s t) c = (decisionBy c.view s t.name, c.next (.typeEligible t.name)) := by
  have hblocks : (c.next (.typeEligible t.name)).blocks = c.blocks :=
    congrArg View.blocks (c.view_next_of_question (isQuestion_typeEligible t.name))
  have hcolumns : columnsOf (c.next (.typeEligible t.name)) s t.name =
      shownColumns c.view s t.name := by
    rw [columnsOf, Collection.columnsFor, hblocks]
    rfl
  rw [decisionFor, ask_bind, ask_isTypeEligible, decisionBy]
  cases c.view.isEligible t.name with
  | false => rfl
  | true =>
    change ask (if (columnsOf (c.next (.typeEligible t.name)) s t.name).isEmpty = true then
      pure (Decision.columnless t.name)
      else pure (Decision.shown ⟨t.name, columnsOf (c.next (.typeEligible t.name)) s t.name⟩)) _ = _
    rw [hcolumns, ask_ite]
    cases (shownColumns c.view s t.name).isEmpty <;> rfl

/-! ## Several types -/

/-- The questions about the types of a service. -/
def questions (types : List AnswerType) : List Display.Operation :=
  types.map fun t => .typeEligible t.name

/-- Questions about types change nothing of what is to be seen. -/
theorem view_after_questions (c : Collection) (types : List AnswerType) :
    (c.after (questions types)).view = c.view := by
  induction types generalizing c with
  | nil => rfl
  | cons t types ih =>
    rw [questions, List.map_cons, Collection.after_cons, ← questions, ih,
      c.view_next_of_question (isQuestion_typeEligible t.name)]

/-- **All types are decided by what is to be seen at the beginning.** -/
theorem ask_mapM_decisionFor (s : Service) (types : List AnswerType) (c : Collection) :
    ask (types.mapM (decisionFor s)) c =
      ((types.map (·.name)).map (decisionBy c.view s), c.after (questions types)) := by
  induction types generalizing c with
  | nil => rfl
  | cons t types ih =>
    rw [List.mapM_cons, ask_bind, ask_decisionFor, ask_bind, ih,
      c.view_next_of_question (isQuestion_typeEligible t.name), ask_pure, questions, questions,
      List.map_cons, List.map_cons, List.map_cons, Collection.after_cons]

/-- The collection behind the questions about all types of a service. -/
def asked (c : Collection) (s : Service) : Collection := c.after (questions s.types)

theorem customDocuments_of_loaded {c : Collection} (h : c.loaded = some l) :
    customDocuments c = .ok l.documents := by
  rw [customDocuments, h]

theorem customDocuments_of_not_loaded {c : Collection} (h : c.loaded = none) :
    customDocuments c = .error .notLoaded := by
  rw [customDocuments, h]

/-- All types are decided, unless no documents are loaded. -/
theorem ask_decisions (s : Service) (c : Collection) :
    ask (decisions s) c =
      match customDocuments c with
      | .error e => (.error e, c)
      | .ok _ => (.ok ((s.types.map (·.name)).map (decisionBy c.view s)), asked c s) := by
  rw [decisions, ask_bind, ask_get]
  cases customDocuments c with
  | error e => rfl
  | ok documents =>
    dsimp only
    rw [ask_bind, ask_mapM_decisionFor]
    rfl

/-- With loaded documents the decisions are those of the declared types, in order. -/
theorem ask_decisions_of_loaded (s : Service) {c : Collection} (h : c.loaded = some l) :
    ask (decisions s) c =
      (.ok ((s.types.map (·.name)).map (decisionBy c.view s)), asked c s) := by
  rw [ask_decisions, customDocuments_of_loaded h]

/-- Without documents nothing is decided, and nothing is asked. -/
theorem ask_decisions_of_not_loaded (s : Service) {c : Collection} (h : c.loaded = none) :
    ask (decisions s) c = (.error .notLoaded, c) := by
  rw [ask_decisions, customDocuments_of_not_loaded h]

/-- **The views of a service**, once documents are loaded. -/
theorem ask_views (s : Service) {c : Collection} (h : c.loaded = some l) :
    ask (views s) c = (.ok (viewsBy c.view s), asked c s) := by
  rw [views, ask_bind, ask_decisions_of_loaded s h, ask_pure, viewsBy, shownTypes,
    ← filterMap_view_decisionBy]
  rfl

/-- With loaded documents the whole document is rendered. -/
theorem ask_rendering (s : Service) {c : Collection} (h : c.loaded = some l) :
    ∃ notes, ask (rendering s) c =
      (.ok ⟨document s.id (viewsBy c.view s) (customViews l.documents), notes⟩, asked c s) := by
  have hloaded : (asked c s).loaded = some l := (c.extends_after _).loaded_eq l h
  rw [rendering, ask_bind, ask_decisions_of_loaded s h, viewsBy, shownTypes,
    ← filterMap_view_decisionBy]
  dsimp only
  rw [ask_bind, ask_get, customDocuments_of_loaded hloaded]
  exact ⟨_, rfl⟩

/-- **The document of a service**, once documents are loaded, holds its views and theirs. -/
theorem ask_render (s : Service) {c : Collection} (h : c.loaded = some l) :
    ask (render s) c =
      (.ok (document s.id (viewsBy c.view s) (customViews l.documents)), asked c s) := by
  obtain ⟨notes, hrendering⟩ := ask_rendering s h
  rw [render, ask_bind, hrendering]
  rfl

/-- Without documents there are no views. -/
theorem ask_views_of_not_loaded (s : Service) {c : Collection} (h : c.loaded = none) :
    ask (views s) c = (.error .notLoaded, c) := by
  rw [views, ask_bind, ask_decisions_of_not_loaded s h]
  rfl

/-- Without documents nothing is rendered. -/
theorem ask_render_of_not_loaded (s : Service) {c : Collection} (h : c.loaded = none) :
    ask (render s) c = (.error .notLoaded, c) := by
  rw [render, ask_bind, rendering, ask_bind, ask_decisions_of_not_loaded s h]
  rfl

/-! ## What is frozen -/

/-- A question that is settled stays so when nothing changes of what is to be seen. -/
theorem settled_of_extends {c c' : Collection} (h : c.Extends c') (hview : c'.view = c.view)
    (hs : c.Settled op) : c'.Settled op := by
  intro l hconsults
  rw [hview] at hconsults
  obtain ⟨xs, hxs⟩ := hs l hconsults
  exact ⟨xs, h.snapshot_eq l xs hxs⟩

/-- Behind the questions about types, each of them is settled. -/
theorem settled_after_questions {types : List AnswerType} (ht : t ∈ types) (c : Collection) :
    (c.after (questions types)).Settled (.typeEligible t.name) := by
  induction types generalizing c with
  | nil => contradiction
  | cons u types ih =>
    rw [questions, List.map_cons, Collection.after_cons, ← questions]
    rcases List.mem_cons.mp ht with rfl | ht
    · exact settled_of_extends (Collection.extends_after _ _) (view_after_questions _ types)
        (c.settled_next_of_question (isQuestion_typeEligible t.name))
    · exact ih ht _

/-- A type that is eligible when its question is settled is among the types to keep as they are
frozen, or its namespace is not left out. -/
theorem mem_included_of_isEligible {c : Collection} {typeName : String}
    (hs : c.Settled (.typeEligible typeName)) (h : c.view.isEligible typeName = true)
    (hnamespace : isInternal (namespaceOf typeName) = true ∨
      ∃ listed, c.namespaces.snapshot = some listed ∧ namespaceOf typeName ∈ listed) :
    ∃ included, c.inclusions.snapshot = some included ∧ typeName ∈ included := by
  rw [View.isEligible, Bool.and_eq_true] at h
  obtain ⟨included, hincluded⟩ := hs .typesToInclude h.1
  have hleavesOut : c.view.leavesOut (namespaceOf typeName) = true := by
    rw [View.leavesOut, Bool.or_eq_true, List.contains_iff_mem]
    refine hnamespace.imp_right ?_
    rintro ⟨listed, hlisted, hmem⟩
    change _ ∈ c.namespaces.value
    rwa [Display.Memo.value_eq_of_snapshot hlisted]
  have hkept : (c.view.seen .typesToInclude).contains typeName = true := by
    simpa only [hleavesOut, Bool.not_true, Bool.or_false] using h.2
  refine ⟨included, hincluded, ?_⟩
  rw [List.contains_iff_mem] at hkept
  change _ ∈ (c.list .typesToInclude).value at hkept
  rwa [Display.Memo.value_eq_of_snapshot hincluded] at hkept

/-! ## The law of views -/

/-- What is to be said of the views of a service, made from a collection. -/
structure ViewLaw (c : Collection) (s : Service) : Prop where
  /-- Without loaded documents there are no views, and no document. -/
  notLoaded : c.loaded = none →
    (ask (views s) c).1 = .error .notLoaded ∧ (ask (render s) c).1 = .error .notLoaded
  /-- Otherwise the types that are eligible and have columns get a view with all of these, in the
  order of the service. -/
  views_eq : ∀ l, c.loaded = some l →
    (ask (views s) c).1 =
      .ok (((s.types.map (·.name)).filter fun typeName =>
          (ask (Collection.isTypeEligible typeName) c).1 &&
            !(Display.columnsFor c.blocks typeName s.propertiesOf?).isEmpty).map fun typeName =>
        ⟨typeName,
          (Display.columnsFor c.blocks typeName s.propertiesOf?).map ViewColumn.ofColumn⟩)
  /-- No document declares a type that gets a view... -/
  undeclared : ∀ l vs, c.loaded = some l → (ask (views s) c).1 = .ok vs →
    ∀ v ∈ vs, ∀ d ∈ l.documents, v.typeName ∉ d.typeNames
  /-- ...and it is not among the types to leave out, which are frozen... -/
  unlisted : ∀ l vs, c.loaded = some l → (ask (views s) c).1 = .ok vs →
    ∃ listed, c.exclusions.snapshot = some listed ∧ ∀ v ∈ vs, v.typeName ∉ listed
  /-- ...and in a namespace that is internal, or left out by what is frozen of that list, it is
  among the types to keep, which are frozen then. -/
  included : ∀ vs, (ask (views s) c).1 = .ok vs → ∀ v ∈ vs,
    (isInternal (namespaceOf v.typeName) = true ∨
      ∃ namespaces, (ask (views s) c).2.namespaces.snapshot = some namespaces ∧
        namespaceOf v.typeName ∈ namespaces) →
    ∃ kept, (ask (views s) c).2.inclusions.snapshot = some kept ∧ v.typeName ∈ kept

section
variable {c : Collection} {s : Service} {vs : List TableView} {v : TableView}

/-- There are views only when documents are loaded. -/
theorem exists_loaded_of_views (h : (ask (views s) c).1 = .ok vs) : ∃ l, c.loaded = some l := by
  cases hloaded : c.loaded with
  | some l => exact ⟨l, rfl⟩
  | none =>
    rw [ask_views_of_not_loaded s hloaded] at h
    contradiction

/-- A view is that of an eligible type of the service. -/
theorem isEligible_of_mem_views (h : (ask (views s) c).1 = .ok vs) (hv : v ∈ vs) :
    (∃ t ∈ s.types, t.name = v.typeName) ∧ c.view.isEligible v.typeName = true := by
  obtain ⟨l, hloaded⟩ := exists_loaded_of_views h
  rw [ask_views s hloaded] at h
  obtain rfl := Except.ok.inj h
  obtain ⟨typeName, htype, rfl⟩ := List.mem_map.mp hv
  rw [shownTypes, List.mem_filter, Bool.and_eq_true, List.mem_map] at htype
  exact ⟨htype.1, htype.2.1⟩

/-- The type of a view is not left out. -/
theorem not_mem_excluded_of_mem_views (hloaded : c.loaded = some l)
    (h : (ask (views s) c).1 = .ok vs) (hv : v ∈ vs) : v.typeName ∉ l.excluded := by
  have heligible := (isEligible_of_mem_views h hv).2
  rw [View.isEligible, Bool.and_eq_true, Bool.not_eq_true', ← Bool.not_eq_true,
    List.contains_iff_mem] at heligible
  have hexcluded : c.view.excluded = l.excluded := by
    change c.excluded = _
    rw [Collection.excluded, hloaded]
    rfl
  rw [← hexcluded]
  exact heligible.1

end

/-- The types that are left out behind a history in which documents were loaded. -/
theorem exists_excluded_eq (m : Manifest) {past : List Display.Operation}
    (h : ((Collection.ofManifest m).after past).loaded = some l) :
    ∃ listed, ((Collection.ofManifest m).after past).exclusions.snapshot = some listed ∧
      l.excluded = listed ++ l.documents.flatMap (·.typeNames) :=
  ((Collection.ofManifest m).extends_after past).excluded_eq rfl l h

/-- **The law of views**: behind any history, the views that are made and those of the documents
are for different types. -/
theorem viewLaw (m : Manifest) (past : List Display.Operation) (s : Service) :
    ViewLaw ((Collection.ofManifest m).after past) s where
  notLoaded h := by
    rw [ask_views_of_not_loaded s h, ask_render_of_not_loaded s h]
    exact ⟨rfl, rfl⟩
  views_eq l h := by
    simp only [ask_views s h, ask_isTypeEligible, viewsBy, shownTypes, shownColumns,
      List.isEmpty_map]
    rfl
  undeclared l vs hloaded h v hv d hd := by
    obtain ⟨listed, -, hexcluded⟩ := exists_excluded_eq m hloaded
    have hout := not_mem_excluded_of_mem_views hloaded h hv
    rw [hexcluded, List.mem_append, not_or, List.mem_flatMap] at hout
    exact fun hmem => hout.2 ⟨d, hd, hmem⟩
  unlisted l vs hloaded h := by
    obtain ⟨listed, hlisted, hexcluded⟩ := exists_excluded_eq m hloaded
    refine ⟨listed, hlisted, fun v hv => ?_⟩
    have hout := not_mem_excluded_of_mem_views hloaded h hv
    rw [hexcluded, List.mem_append, not_or] at hout
    exact hout.1
  included vs h v hv := by
    obtain ⟨l, hloaded⟩ := exists_loaded_of_views h
    obtain ⟨⟨t, ht, hname⟩, heligible⟩ := isEligible_of_mem_views h hv
    rw [ask_views s hloaded]
    have hsettled := settled_after_questions ht ((Collection.ofManifest m).after past)
    rw [hname] at hsettled
    refine mem_included_of_isEligible hsettled ?_
    rw [asked, view_after_questions]
    exact heligible

/-! ## A shop -/

/-- A text with one view, behind a comment. -/
def handmadeText : String := "<!-- <View> --><View><TypeName>A.B</TypeName></View>\n"

/-- The files of the shop: the text is that of a custom document. -/
def shopFiles : Files.Tree where
  root := .folder [("CustomFormats", .folder [("B.ps1xml", .file (some handmadeText))])]
  here := []

/-- That document. -/
def handmade : CustomDocument :=
  ⟨"/CustomFormats/B.ps1xml", ["A.B"], ["<View><TypeName>A.B</TypeName></View>"]⟩

/-- A service with three types. -/
def shop : Service where
  id := "Shop"
  scope := "A"
  clientInterface := "IShop"
  nounPrefix? := none
  sdkVersion := "1"
  enums := []
  types := [⟨"A.B", ["Id"]⟩, ⟨"A.C", ["Id"]⟩, ⟨"A.D", ["Id"]⟩]
  operations := []

/-- Rules with a column for each of them, of which the last one is left out with its namespace. -/
def shopManifest : Manifest where
  namespacesToExclude := ["A"]
  typesToInclude := ["A.B", "A.C"]
  typesToExclude := []
  blocks := [⟨["A.B", "A.C", "A.D"], [.ofProperty "</View>"], none, []⟩]

/-- The rules once the custom documents are loaded. -/
def shopRules : Collection := (Collection.ofManifest shopManifest).after [.load shopFiles "/" none]

/-- The view of the one type that is neither left out nor in a document. -/
def shopView : TableView := ⟨"A.C", [⟨"</View>", 0, .unset, "</View>", none⟩]⟩

theorem loaded_shopRules : shopRules.loaded = some ⟨[handmade], ["A.B"]⟩ := by decide +kernel

theorem viewLaw_shop :
    shopRules.loaded = some ⟨[handmade], ["A.B"]⟩ ∧
      (ask (views shop) shopRules).1 = .ok [shopView] ∧
      shopView.typeName ∉ handmade.typeNames ∧
      (∃ listed, shopRules.exclusions.snapshot = some listed ∧ shopView.typeName ∉ listed) ∧
      ∃ kept, (ask (views shop) shopRules).2.inclusions.snapshot = some kept ∧
        shopView.typeName ∈ kept := by
  have hlaw : ViewLaw shopRules shop := viewLaw shopManifest [.load shopFiles "/" none] shop
  have hviews : (ask (views shop) shopRules).1 = .ok [shopView] := by
    rw [hlaw.views_eq _ loaded_shopRules]
    exact congrArg Except.ok (by decide +kernel)
  have hmem : shopView ∈ [shopView] := List.mem_singleton_self shopView
  have hfrozen : (ask (views shop) shopRules).2.namespaces.snapshot = some ["A"] := by
    decide +kernel
  obtain ⟨listed, hlisted, hout⟩ := hlaw.unlisted _ _ loaded_shopRules hviews
  exact ⟨loaded_shopRules, hviews,
    hlaw.undeclared _ _ loaded_shopRules hviews shopView hmem handmade
      (List.mem_singleton_self handmade),
    ⟨listed, hlisted, hout shopView hmem⟩,
    hlaw.included _ hviews shopView hmem (.inr ⟨["A"], hfrozen, by decide +kernel⟩)⟩

end CmdletForge.Format
