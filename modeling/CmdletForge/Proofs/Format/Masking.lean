import CmdletForge.Proofs.Display.Grouping
import CmdletForge.Proofs.Display.Overlays
import CmdletForge.Proofs.Format.Encoding

/-!
# CmdletForge.Proofs.Format.Masking

What a document does not tell: the scripts of sensitive columns.

1. A column is sensitive when one of the contributions with its key is
   (`sensitive_of_mem_columnsFor`), so it is shown as a mask.
2. `Alike` relates two columns that differ in their scripts at most, and only when their key is
   secret.  What is gathered from contributions that are alike is alike (`Alike.foldl_gather`):
   a script is no key of these columns, so it decides neither which columns are laid over one
   another nor where they stand.
3. With the keys of sensitive contributions as the secret ones, columns that are alike are shown
   alike, so other scripts for them make the same views (`viewsBy_eq_of_otherScripts`).
   `maskingLaw` puts this together.
-/

namespace CmdletForge.Format

open Display (Block Catalog Collection Column columnsFor contributionsFor)
open Display.Question (ask)
open Xml (Content elements)

/-! ## Sensitive columns -/

/-- Columns laid over one another are sensitive when one of them is. -/
theorem sensitive_layered (cs : List Column) :
    (Display.layered cs).sensitive = cs.any (·.sensitive) := by
  cases cs with
  | nil => rfl
  | cons c cs => exact Display.sensitive_foldl_merge c cs

/-- The columns of a type are the groups of its contributions, in another order. -/
theorem mem_columnsFor_iff {blocks : List Block} {typeName : String} {catalog : Catalog}
    {c : Column} :
    c ∈ columnsFor blocks typeName catalog ↔
      c ∈ Display.grouped (contributionsFor blocks typeName catalog) := by
  rw [columnsFor, Display.foldl_gather, List.mem_mergeSort]

section
variable {cs : List Column} {k : String} {x c : Column}

/-- The group of a key is sensitive when one contribution with the key is. -/
theorem sensitive_of_mem_grouped (hx : x ∈ cs) (hkey : x.key = some k)
    (hsensitive : x.sensitive = true) (hc : c ∈ Display.grouped cs) (hck : c.key = some k) :
    c.sensitive = true := by
  obtain ⟨d, hd, rfl⟩ := List.mem_map.mp hc
  rw [Display.key_entry (Display.mem_of_mem_leaders hd)] at hck
  have hentry : Display.entry cs d = Display.layered (Display.keyed k cs) := by
    rw [Display.entry, hck]
  rw [hentry, sensitive_layered, List.any_eq_true]
  exact ⟨x, List.mem_filter.mpr ⟨hx, by simpa using hkey⟩, hsensitive⟩

end

/-- **A sensitive contribution makes the column of its key sensitive**, wherever it stands. -/
theorem sensitive_of_mem_columnsFor {blocks : List Block} {typeName : String} {catalog : Catalog}
    {x c : Column} {k : String} (hx : x ∈ contributionsFor blocks typeName catalog)
    (hkey : x.key = some k) (hsensitive : x.sensitive = true)
    (hc : c ∈ columnsFor blocks typeName catalog) (hck : c.key = some k) : c.sensitive = true :=
  sensitive_of_mem_grouped hx hkey hsensitive (mem_columnsFor_iff.mp hc) hck

/-! ## Columns that are alike -/

/-- A column without its script. -/
def bare (c : Column) : Column := { c with script := none }

/-- Columns with the same key that differ in their scripts at most, and only when the key is
secret. -/
structure Alike (secret : String → Prop) (a b : Column) : Prop where
  key_eq : a.key = b.key
  bare_eq : bare a = bare b
  eq_or : a = b ∨ ∃ k, a.key = some k ∧ secret k

section
variable {secret : String → Prop} {a b c d : Column} {cs ds : List Column} {k : String}

theorem Alike.refl (secret : String → Prop) (a : Column) : Alike secret a a := ⟨rfl, rfl, .inl rfl⟩

theorem bare_merge (a b : Column) : bare (a.merge b) = (bare a).merge (bare b) := rfl

/-- Laying columns over one another goes along. -/
theorem Alike.merge (h : Alike secret a b) (h' : Alike secret c d) (ha : a.key = some k)
    (hc : c.key = some k) : Alike secret (a.merge c) (b.merge d) := by
  have hkey := Column.key_merge ha hc
  have hkey' := Column.key_merge (h.key_eq ▸ ha) (h'.key_eq ▸ hc)
  refine ⟨hkey.trans hkey'.symm, by rw [bare_merge, bare_merge, h.bare_eq, h'.bare_eq], ?_⟩
  -- the two keys are one, so it is secret for the merged columns when it is for either pair
  have hsecret : (∃ k, a.key = some k ∧ secret k) ∨ (∃ k, c.key = some k ∧ secret k) →
      ∃ k, (a.merge c).key = some k ∧ secret k := by
    rintro (⟨k', hk', hs⟩ | ⟨k', hk', hs⟩)
    · exact ⟨k', hkey.trans (ha.symm.trans hk'), hs⟩
    · exact ⟨k', hkey.trans (hc.symm.trans hk'), hs⟩
  rcases h.eq_or with rfl | hs
  · rcases h'.eq_or with rfl | hs
    · exact .inl rfl
    · exact .inr (hsecret (.inr hs))
  · exact .inr (hsecret (.inl hs))

/-- One column finds its place in both lists, or in neither. -/
theorem Alike.overlay (hlists : List.Forall₂ (Alike secret) cs ds) (h : Alike secret c d)
    (hkey : c.key = some k) :
    (Display.overlay k c cs = none ∧ Display.overlay k d ds = none) ∨
      ∃ cs' ds', Display.overlay k c cs = some cs' ∧ Display.overlay k d ds = some ds' ∧
        List.Forall₂ (Alike secret) cs' ds' := by
  induction hlists with
  | nil => exact .inl ⟨rfl, rfl⟩
  | @cons a b cs ds hab hlists ih =>
    rw [Display.overlay, Display.overlay, ← hab.key_eq]
    by_cases ha : a.key = some k
    · rw [if_pos ha, if_pos ha]
      exact .inr ⟨_, _, rfl, rfl, .cons (hab.merge h ha hkey) hlists⟩
    · rw [if_neg ha, if_neg ha]
      rcases ih with ⟨hc, hd⟩ | ⟨cs', ds', hc, hd, hlists'⟩
      · exact .inl ⟨by rw [hc]; rfl, by rw [hd]; rfl⟩
      · exact .inr ⟨_, _, by rw [hc]; rfl, by rw [hd]; rfl, .cons hab hlists'⟩

/-- **Gathering one contribution** keeps the columns alike. -/
theorem Alike.gather (hlists : List.Forall₂ (Alike secret) cs ds) (h : Alike secret c d) :
    List.Forall₂ (Alike secret) (Display.gather cs c) (Display.gather ds d) := by
  have happend : List.Forall₂ (Alike secret) (cs ++ [c]) (ds ++ [d]) :=
    List.rel_append hlists (.cons h .nil)
  rw [Display.gather, Display.gather, ← h.key_eq]
  cases hkey : c.key with
  | none => exact happend
  | some k =>
    rw [Option.bind_some, Option.bind_some]
    rcases Alike.overlay hlists h hkey with ⟨hc, hd⟩ | ⟨cs', ds', hc, hd, hlists'⟩
    · rw [hc, hd]
      exact happend
    · rw [hc, hd]
      exact hlists'

/-- **Gathering all contributions** keeps the columns alike. -/
theorem Alike.foldl_gather {xs ys : List Column} (h : List.Forall₂ (Alike secret) xs ys)
    (hlists : List.Forall₂ (Alike secret) cs ds) :
    List.Forall₂ (Alike secret) (xs.foldl Display.gather cs) (ys.foldl Display.gather ds) := by
  induction h generalizing cs ds with
  | nil => exact hlists
  | cons hxy _ ih => exact ih (Alike.gather hlists hxy)

/-! ## What is shown of columns -/

/-- A column without its script, when it is sensitive. -/
def veil (c : Column) : Column := if c.sensitive then bare c else c

/-- The veil hides nothing that is shown. -/
theorem ofColumn_veil (c : Column) : ViewColumn.ofColumn (veil c) = ViewColumn.ofColumn c := by
  unfold veil
  split
  next h => simp [ViewColumn.ofColumn, bare, h, Column.header]
  next => rfl

theorem order_veil (c : Column) : (veil c).order = c.order := by
  unfold veil
  split <;> rfl

/-- Columns that are alike are shown alike, when those with secret keys are sensitive. -/
theorem Alike.veil_eq (h : Alike secret a b)
    (hsecret : ∀ k, a.key = some k → secret k → a.sensitive = true) : veil a = veil b := by
  rcases h.eq_or with rfl | ⟨k, hkey, hs⟩
  · rfl
  · have ha := hsecret k hkey hs
    have hb : b.sensitive = true := (congrArg Column.sensitive h.bare_eq).symm.trans ha
    rw [veil, veil, if_pos ha, if_pos hb, h.bare_eq]

/-- Sorting does not look at scripts. -/
theorem map_veil_mergeSort (cs : List Column) :
    (cs.mergeSort Display.orderLe).map veil = (cs.map veil).mergeSort Display.orderLe := by
  refine List.map_mergeSort fun a _ b _ => ?_
  rw [Display.orderLe, Display.orderLe, order_veil, order_veil]

/-- Columns that are alike but for secret ones look the same behind the veil. -/
theorem map_veil_eq (h : List.Forall₂ (Alike secret) cs ds)
    (hsecret : ∀ a ∈ cs, ∀ k, a.key = some k → secret k → a.sensitive = true) :
    cs.map veil = ds.map veil := by
  induction h with
  | nil => rfl
  | cons hab _ ih =>
    rw [List.forall_mem_cons] at hsecret
    rw [List.map_cons, List.map_cons, hab.veil_eq hsecret.1, ih hsecret.2]

/-- What looks the same behind the veil is shown the same. -/
theorem map_ofColumn_eq_of_veil (h : cs.map veil = ds.map veil) :
    cs.map ViewColumn.ofColumn = ds.map ViewColumn.ofColumn := by
  have hveil : ViewColumn.ofColumn ∘ veil = ViewColumn.ofColumn := funext ofColumn_veil
  rw [← hveil, ← List.map_map, h, List.map_map]

end

/-! ## Collections that differ in scripts -/

/-- The keys of the sensitive contributions to a type. -/
def IsSecret (blocks : List Block) (typeName : String) (catalog : Catalog) (k : String) : Prop :=
  ∃ x ∈ contributionsFor blocks typeName catalog, x.key = some k ∧ x.sensitive = true

/-- A column of the block `b` has another script or none, and this cannot be seen: the column has
a property or a label to be known by, and its key has a sensitive contribution for each type of
the service that the block is for. -/
structure OtherScript (s : Service) (blocks : List Block) (b : Block) (c c' : Column) : Prop where
  eq_but_script : c' = { c with script := c'.script }
  named : c.property.isSome ∨ c.label.isSome
  sensitive : ∀ t ∈ s.types, b.appliesTo t.name = true →
    ∃ x ∈ contributionsFor blocks t.name s.propertiesOf?, x.key = c.key ∧ x.sensitive = true

/-- A block with other scripts for some of its columns, where that cannot be seen. -/
structure OtherScripts (s : Service) (blocks : List Block) (b b' : Block) : Prop where
  types_eq : b'.types = b.types
  reflected_eq : b'.reflected = b.reflected
  skipped_eq : b'.skipped = b.skipped
  columns : List.Forall₂ (fun c c' => c' = c ∨ OtherScript s blocks b c c') b.columns b'.columns

section
variable {s : Service} {blocks : List Block} {t : AnswerType} {b b' : Block}

/-- A column with a property or a label is known by that, whatever its script is. -/
theorem exists_key_of_named {c : Column} (h : c.property.isSome ∨ c.label.isSome) :
    ∃ k, ∀ script, ({ c with script := script } : Column).key = some k := by
  unfold Column.key
  cases hproperty : c.property with
  | some p => exact ⟨p, fun _ => rfl⟩
  | none =>
    cases hlabel : c.label with
    | some l => exact ⟨l, fun _ => rfl⟩
    | none => simp [hproperty, hlabel] at h

/-- Another script of a block makes contributions that are alike. -/
theorem OtherScript.alike {c c' : Column} (h : OtherScript s blocks b c c') (ht : t ∈ s.types)
    (happlies : b.appliesTo t.name = true) :
    Alike (IsSecret blocks t.name s.propertiesOf?) c c' := by
  obtain ⟨k, hk⟩ := exists_key_of_named h.named
  have hkey : c.key = some k := hk c.script
  have hkey' : c'.key = some k := by
    rw [h.eq_but_script]
    exact hk c'.script
  obtain ⟨x, hx, hxkey, hsensitive⟩ := h.sensitive t ht happlies
  refine ⟨hkey.trans hkey'.symm, ?_, .inr ⟨k, hkey, x, hx, hxkey.trans hkey, hsensitive⟩⟩
  rw [h.eq_but_script]
  rfl

/-- What a block contributes goes along with its columns. -/
theorem OtherScripts.contributions (h : OtherScripts s blocks b b') (ht : t ∈ s.types)
    (happlies : b.appliesTo t.name = true) :
    List.Forall₂ (Alike (IsSecret blocks t.name s.propertiesOf?))
      (b.contributions s.propertiesOf?) (b'.contributions s.propertiesOf?) := by
  have hreflected : b'.reflectedType? = b.reflectedType? := by
    rw [Block.reflectedType?, Block.reflectedType?, h.reflected_eq]
  have hskips : b'.skips = b.skips := by
    funext property
    rw [Block.skips, Block.skips, h.skipped_eq]
  rw [Block.contributions, Block.contributions, hreflected, hskips]
  cases b.reflectedType? with
  | none =>
    refine h.columns.imp fun c c' hc => ?_
    rcases hc with rfl | hother
    · exact .refl _ _
    · exact hother.alike ht happlies
  | some name => exact List.forall₂_same.mpr fun c _ => .refl _ c

/-- What all blocks contribute to a type goes along with them. -/
theorem contributionsFor_alike {bs bs' : List Block} (ht : t ∈ s.types)
    (h : List.Forall₂ (OtherScripts s blocks) bs bs') :
    List.Forall₂ (Alike (IsSecret blocks t.name s.propertiesOf?))
      (contributionsFor bs t.name s.propertiesOf?)
      (contributionsFor bs' t.name s.propertiesOf?) := by
  induction h with
  | nil => exact .nil
  | @cons b b' bs bs' hb hbs ih =>
    have happlies : b'.appliesTo t.name = b.appliesTo t.name := by
      rw [Block.appliesTo, Block.appliesTo, hb.types_eq]
    rw [contributionsFor, contributionsFor, Display.blocksFor, Display.blocksFor,
      List.filter_cons, List.filter_cons, happlies]
    by_cases hfor : b.appliesTo t.name = true
    · rw [if_pos hfor, if_pos hfor, List.flatMap_cons, List.flatMap_cons]
      exact List.rel_append (hb.contributions ht hfor) ih
    · rw [if_neg hfor, if_neg hfor]
      exact ih

/-- **The columns of a type are shown the same.** -/
theorem map_ofColumn_columnsFor {blocks' : List Block} (ht : t ∈ s.types)
    (h : List.Forall₂ (OtherScripts s blocks) blocks blocks') :
    (columnsFor blocks' t.name s.propertiesOf?).map ViewColumn.ofColumn =
      (columnsFor blocks t.name s.propertiesOf?).map ViewColumn.ofColumn := by
  have halike := Alike.foldl_gather (contributionsFor_alike ht h) .nil
  have hveil : ((contributionsFor blocks t.name s.propertiesOf?).foldl Display.gather []).map veil =
      ((contributionsFor blocks' t.name s.propertiesOf?).foldl Display.gather []).map veil := by
    refine map_veil_eq halike fun a ha k hk ⟨x, hx, hxkey, hsensitive⟩ => ?_
    rw [Display.foldl_gather] at ha
    exact sensitive_of_mem_grouped hx hxkey hsensitive ha hk
  apply map_ofColumn_eq_of_veil
  rw [columnsFor, columnsFor, map_veil_mergeSort, map_veil_mergeSort, hveil]

end

/-- **Scripts that are masked make no difference**: the same views, and the same document. -/
theorem viewsBy_eq_of_otherScripts {s : Service} {c : Collection} {blocks' : List Block}
    (h : List.Forall₂ (OtherScripts s c.blocks) c.blocks blocks') :
    viewsBy { c with blocks := blocks' }.view s = viewsBy c.view s := by
  have heligible : ({ c with blocks := blocks' } : Collection).view.isEligible =
      c.view.isEligible := rfl
  have hcolumns : ∀ typeName ∈ s.types.map (·.name),
      shownColumns { c with blocks := blocks' }.view s typeName =
        shownColumns c.view s typeName := by
    intro typeName htype
    obtain ⟨t, ht, rfl⟩ := List.mem_map.mp htype
    exact map_ofColumn_columnsFor ht h
  have htypes : shownTypes { c with blocks := blocks' }.view s = shownTypes c.view s := by
    rw [shownTypes, shownTypes, heligible]
    exact List.filter_congr fun typeName htype => by rw [hcolumns typeName htype]
  rw [viewsBy, viewsBy, htypes]
  refine List.map_congr_left fun typeName htype => ?_
  rw [hcolumns typeName (List.mem_filter.mp htype).1]

/-! ## The law of masking -/

/-- The view of a type, by the blocks and the properties of types. -/
def viewOf (blocks : List Block) (typeName : String) (catalog : Catalog) : TableView :=
  ⟨typeName, (columnsFor blocks typeName catalog).map ViewColumn.ofColumn⟩

/-- What is to be said of sensitive columns, for a service and the rules of a collection. -/
structure MaskingLaw (c : Collection) (s : Service) : Prop where
  /-- The views of the service are those of their types... -/
  views_eq : ∀ vs, (ask (views s) c).1 = .ok vs →
    ∀ v ∈ vs, v = viewOf c.blocks v.typeName s.propertiesOf?
  /-- ...and the document that is rendered holds what is written of each of them. -/
  printed : ∀ vs, (ask (views s) c).1 = .ok vs → ∃ text, (ask (render s) c).1 = .ok text ∧
    ∀ v ∈ vs, ∃ front back, text = front ++ v.markup ++ back
  /-- A key with a sensitive contribution to a type is that of a column of the type... -/
  kept : ∀ typeName catalog k, IsSecret c.blocks typeName catalog k →
    ∃ column ∈ columnsFor c.blocks typeName catalog, column.key = some k
  /-- ...and the column with that key is shown as the mask: wherever it stands, the script is the
  mask, and so is what is read in its place of the view, without a property. -/
  masked : ∀ typeName catalog k, IsSecret c.blocks typeName catalog k →
    ∀ (j : Nat) (column : Column), (columnsFor c.blocks typeName catalog)[j]? = some column →
      column.key = some k →
      (∃ shown : ViewColumn, (viewOf c.blocks typeName catalog).columns[j]? = some shown ∧
        shown.script = some mask) ∧
      ∃ content item : Content,
        elements "View" (viewOf c.blocks typeName catalog).markup = [content] ∧
        (content.find "TableColumnItem")[j]? = some item ∧
        item.texts "ScriptBlock" = [mask] ∧ item.texts "PropertyName" = []
  /-- Other scripts of contributions that have a name to be known by, and a key that is secret for
  each type that they are for, make no other document. -/
  silent : ∀ blocks', List.Forall₂ (OtherScripts s c.blocks) c.blocks blocks' →
    (ask (render s) { c with blocks := blocks' }).1 = (ask (render s) c).1

/-- **The law of masking**: what is sensitive is masked, and its scripts cannot be told from the
document. -/
theorem maskingLaw (c : Collection) (s : Service) : MaskingLaw c s where
  views_eq vs h v hv := by
    obtain ⟨l, hloaded⟩ := exists_loaded_of_views h
    rw [ask_views s hloaded] at h
    obtain rfl := Except.ok.inj h
    obtain ⟨typeName, -, rfl⟩ := List.mem_map.mp hv
    rfl
  printed vs h := by
    obtain ⟨l, hloaded⟩ := exists_loaded_of_views h
    rw [ask_views s hloaded] at h
    obtain rfl := Except.ok.inj h
    rw [ask_render s hloaded]
    exact ⟨_, rfl, fun v hv => exists_eq_document s.id (customViews l.documents) hv⟩
  kept typeName catalog k := by
    rintro ⟨x, hx, hkey, -⟩
    obtain ⟨column, hcolumn, hk⟩ := (Display.exists_key_grouped _ k).mpr ⟨x, hx, hkey⟩
    exact ⟨column, mem_columnsFor_iff.mpr hcolumn, hk⟩
  masked typeName catalog k := by
    rintro ⟨x, hx, hkey, hsensitive⟩ j column hj hk
    have hcolumn : column.sensitive = true :=
      sensitive_of_mem_columnsFor hx hkey hsensitive (List.mem_of_getElem? hj) hk
    have hscript : (ViewColumn.ofColumn column).script = some mask := if_pos hcolumn
    have hshown : (viewOf c.blocks typeName catalog).columns[j]? =
        some (ViewColumn.ofColumn column) := by
      rw [viewOf, List.getElem?_map, hj, Option.map_some]
    refine ⟨⟨_, hshown, hscript⟩, _, (ViewColumn.ofColumn column).item.content 7,
      elements_markup _, ?_, (itemShows_content _ 7).of_script mask hscript (by decide)⟩
    rw [find_items, List.getElem?_map, hshown, Option.map_some]
  silent blocks' h := by
    have hloaded' : ({ c with blocks := blocks' } : Collection).loaded = c.loaded := rfl
    obtain hnone | ⟨l, hloaded⟩ := Option.eq_none_or_eq_some c.loaded
    · rw [ask_render_of_not_loaded s hnone, ask_render_of_not_loaded s (hloaded'.trans hnone)]
    · rw [ask_render s hloaded, ask_render s (hloaded'.trans hloaded),
        viewsBy_eq_of_otherScripts h]

end CmdletForge.Format
