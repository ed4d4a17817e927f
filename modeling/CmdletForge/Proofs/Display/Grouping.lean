import Mathlib.Data.List.Induction
import Mathlib.Data.List.Sort
import Mathlib.Data.Prod.Lex
import CmdletForge.Display.Block

/-!
# CmdletForge.Proofs.Display.Grouping

The columns of a type as a group-by: what the blocks contribute is grouped by key, and the
groups are sorted stably by rank.

1. `gather` takes one contribution after the other and looks for the column to lay it over by
   computing keys anew, of columns that were overlaid before.  That this finds the right one
   rests on `Column.key_merge`: an overlaid column keeps its key.
2. `grouped` says the same without a loop: one entry for each key, where the key comes up
   first, with all contributions of that key laid over one another, and each contribution
   without a key as it is.  `foldl_gather` is the simulation between the two.
3. Columns stand by `Column.rank`, those without an order last.  `StablySorted` says what a
   stable sort is: a sorted list is known by its parts of equal rank (`eq_of_filter_rank_eq`),
   and a stable sort leaves these as they stood, so there is one.
-/

namespace CmdletForge.Display

/-! ## Groups -/

/-- Lays the columns of a list over one another, from the first to the last. -/
def layered : List Column → Column
  | [] => .blank
  | c :: rest => rest.foldl .merge c

/-- The columns of a list that have the key `key`. -/
def keyed (key : String) (cs : List Column) : List Column := cs.filter (·.key = some key)

/-- The columns of a list that come first with their keys, and those without a key. -/
def leaders : List Column → List Column
  | [] => []
  | c :: rest => c :: (leaders rest).filter fun d => d.key = none ∨ d.key ≠ c.key

/-- What a list makes of a column of it: all columns with its key laid over one another, or
the column itself when it has no key. -/
def entry (cs : List Column) (c : Column) : Column :=
  match c.key with
  | none => c
  | some key => layered (keyed key cs)

/-- The groups of a list, in the order in which they begin. -/
def grouped (cs : List Column) : List Column := (leaders cs).map (entry cs)

/-- Whether a list has a column with the key of `c`. -/
def IsKnown (cs : List Column) (c : Column) : Prop := c.key ≠ none ∧ ∃ d ∈ cs, d.key = c.key

instance : Decidable (IsKnown cs c) := inferInstanceAs (Decidable (_ ∧ _))

/-! ## Entries -/

/-- One more column goes over the ones before it. -/
theorem layered_append_singleton (hcs : cs ≠ []) (c : Column) :
    layered (cs ++ [c]) = (layered cs).merge c := by
  cases cs with
  | nil => contradiction
  | cons d rest => simp [layered, List.foldl_append]

/-- Columns of one key keep it when they are merged. -/
theorem key_foldl_merge {c : Column} (cs : List Column) (hc : c.key = some k)
    (hcs : ∀ d ∈ cs, d.key = some k) : (cs.foldl .merge c).key = some k := by
  induction cs generalizing c with
  | nil => exact hc
  | cons d rest ih =>
      simp only [List.mem_cons, forall_eq_or_imp] at hcs
      exact ih (Column.key_merge hc hcs.1) hcs.2

/-- Columns of one key, laid over one another, have that key. -/
theorem key_layered (hne : cs ≠ []) (h : ∀ c ∈ cs, c.key = some k) :
    (layered cs).key = some k := by
  cases cs with
  | nil => contradiction
  | cons c rest =>
      simp only [List.mem_cons, forall_eq_or_imp] at h
      exact key_foldl_merge rest h.1 h.2

theorem keyed_ne_nil (hc : c ∈ cs) (hk : c.key = some k) : keyed k cs ≠ [] :=
  List.ne_nil_of_mem (List.mem_filter.mpr ⟨hc, by simpa using hk⟩)

/-- An entry has the key of the column that it is the entry of. -/
theorem key_entry (hc : c ∈ cs) : (entry cs c).key = c.key := by
  unfold entry
  cases hk : c.key with
  | none => exact hk
  | some key =>
      apply key_layered (keyed_ne_nil hc hk)
      intro d hd
      simpa using (List.mem_filter.mp hd).2

/-- One more column is laid over the entry with its key and leaves the others alone. -/
theorem entry_append_singleton (hd : d ∈ cs) (c : Column) :
    entry (cs ++ [c]) d =
      if d.key ≠ none ∧ d.key = c.key then (entry cs d).merge c else entry cs d := by
  unfold entry
  cases hk : d.key with
  | none => simp
  | some key =>
      by_cases hc : c.key = some key
      · have hkeyed : keyed key (cs ++ [c]) = keyed key cs ++ [c] := by
          simp [keyed, List.filter_append, hc]
        simp only [hkeyed, layered_append_singleton (keyed_ne_nil hd hk)]
        simp [hc]
      · simp [keyed, List.filter_append, hc, Ne.symm hc]

theorem entry_self (h : ¬ IsKnown cs c) : entry (cs ++ [c]) c = c := by
  unfold entry
  cases hk : c.key with
  | none => rfl
  | some key =>
      have hcs : keyed key cs = [] := by
        rw [keyed, List.filter_eq_nil_iff]
        intro d hd hdk
        exact h ⟨by simp [hk], d, hd, by simpa [hk] using hdk⟩
      have hkeyed : keyed key (cs ++ [c]) = [c] := by
        rw [keyed, List.filter_append, ← keyed, hcs]
        simp [hk]
      simp only [hkeyed]
      rfl

/-! ## Leaders -/

theorem mem_of_mem_leaders (h : c ∈ leaders cs) : c ∈ cs := by
  induction cs with
  | nil => exact h
  | cons d rest ih =>
      simp only [leaders, List.mem_cons, List.mem_filter] at h ⊢
      exact h.imp_right fun h => ih h.1

/-- Every key has a leader. -/
theorem exists_leader (hc : c ∈ cs) (hk : c.key = some k) : ∃ d ∈ leaders cs, d.key = some k := by
  induction cs with
  | nil => simp at hc
  | cons d rest ih =>
      by_cases hd : d.key = some k
      · exact ⟨d, by simp [leaders], hd⟩
      · have hrest : c ∈ rest := by
          rcases List.mem_cons.mp hc with rfl | h
          · contradiction
          · exact h
        obtain ⟨e, he, hek⟩ := ih hrest
        refine ⟨e, ?_, hek⟩
        simp [leaders, he, hek, Ne.symm hd]

/-- One more column becomes a leader unless its key is there already. -/
theorem leaders_append_singleton (cs : List Column) (c : Column) :
    leaders (cs ++ [c]) = if IsKnown cs c then leaders cs else leaders cs ++ [c] := by
  induction cs with
  | nil => simp [leaders, IsKnown]
  | cons d rest ih =>
      rw [List.cons_append, leaders, ih]
      by_cases hrest : IsKnown rest c
      · have hknown : IsKnown (d :: rest) c := by grind [IsKnown]
        rw [if_pos hrest, if_pos hknown, leaders]
      · rw [if_neg hrest, List.filter_append]
        by_cases hd : c.key ≠ none ∧ d.key = c.key
        · have hknown : IsKnown (d :: rest) c := ⟨hd.1, d, List.mem_cons_self, hd.2⟩
          rw [if_pos hknown, leaders]
          simp [hd]
        · have hnew : ¬ IsKnown (d :: rest) c := by grind [IsKnown]
          have hkept : c.key = none ∨ c.key ≠ d.key := by grind
          rw [if_neg hnew, leaders]
          simp [hkept]

/-- The leaders have different keys. -/
theorem nodup_keys_leaders (cs : List Column) : ((leaders cs).filterMap Column.key).Nodup := by
  induction cs with
  | nil => simp [leaders]
  | cons c rest ih =>
      rw [leaders, List.filterMap_cons]
      cases hk : c.key with
      | none => simpa using ih
      | some key =>
          refine List.nodup_cons.mpr ⟨?_, ?_⟩
          · grind
          · exact ih.sublist (List.filter_sublist.filterMap _)

/-! ## Groups and their keys -/

/-- Grouping keeps the keys of the leaders, in their order. -/
theorem keys_grouped (cs : List Column) :
    (grouped cs).filterMap Column.key = (leaders cs).filterMap Column.key := by
  rw [grouped, List.filterMap_map]
  exact List.filterMap_congr fun c hc => key_entry (mem_of_mem_leaders hc)

/-- No two groups share a key. -/
theorem nodup_keys_grouped (cs : List Column) : ((grouped cs).filterMap Column.key).Nodup := by
  rw [keys_grouped]
  exact nodup_keys_leaders cs

/-- The groups have the keys of the list, no fewer and no more. -/
theorem exists_key_grouped (cs : List Column) (k : String) :
    (∃ d ∈ grouped cs, d.key = some k) ↔ ∃ c ∈ cs, c.key = some k := by
  constructor
  · rintro ⟨d, hd, hk⟩
    obtain ⟨c, hc, rfl⟩ := List.mem_map.mp hd
    have hc := mem_of_mem_leaders hc
    exact ⟨c, hc, by rwa [key_entry hc] at hk⟩
  · rintro ⟨c, hc, hk⟩
    obtain ⟨d, hd, hdk⟩ := exists_leader hc hk
    exact ⟨entry cs d, List.mem_map_of_mem hd, by rw [key_entry (mem_of_mem_leaders hd), hdk]⟩

/-- A key is known after the grouping exactly when it was before. -/
theorem isKnown_grouped (cs : List Column) (c : Column) :
    IsKnown (grouped cs) c ↔ IsKnown cs c := by
  unfold IsKnown
  cases hk : c.key with
  | none => simp
  | some key => rw [exists_key_grouped]

/-! ## Gathering -/

theorem overlay_eq_none (h : ∀ d ∈ ds, d.key ≠ some k) (c : Column) : overlay k c ds = none := by
  induction ds with
  | nil => rfl
  | cons d rest ih =>
      simp only [List.mem_cons, forall_eq_or_imp] at h
      rw [overlay, if_neg h.1, ih h.2]
      rfl

/-- Where keys are distinct, the first column of a key is the only one. -/
theorem overlay_eq_some (hn : (ds.filterMap Column.key).Nodup) (h : ∃ d ∈ ds, d.key = some k)
    (c : Column) :
    overlay k c ds = some (ds.map fun d => if d.key = some k then d.merge c else d) := by
  induction ds with
  | nil => simp at h
  | cons d rest ih =>
      by_cases hd : d.key = some k
      · rw [List.filterMap_cons_some hd, List.nodup_cons] at hn
        have hrest : ∀ e ∈ rest, e.key ≠ some k := fun e he hek =>
          hn.1 (List.mem_filterMap.mpr ⟨e, he, hek⟩)
        have hsame : (rest.map fun d => if d.key = some k then d.merge c else d) = rest := by
          rw [List.map_congr_left fun e he => if_neg (hrest e he), List.map_id']
        rw [overlay, if_pos hd, List.map_cons, if_pos hd, hsame]
      · have hrest : ∃ e ∈ rest, e.key = some k := by grind
        have hn : (rest.filterMap Column.key).Nodup :=
          hn.sublist ((List.sublist_cons_self d rest).filterMap _)
        rw [overlay, if_neg hd, ih hn hrest, List.map_cons, if_neg hd]
        rfl

/-- Gathering one column into columns with distinct keys. -/
theorem gather_eq (hn : (ds.filterMap Column.key).Nodup) (c : Column) :
    gather ds c =
      if IsKnown ds c then ds.map fun d => if d.key = c.key then d.merge c else d
      else ds ++ [c] := by
  by_cases h : IsKnown ds c
  · obtain ⟨k, hk⟩ := Option.ne_none_iff_exists'.mp h.1
    have hover := overlay_eq_some hn (hk ▸ h.2) c
    rw [if_pos h, gather, hk, Option.bind_some, hover]
  · rw [if_neg h, gather]
    have hnone : (c.key.bind fun key => overlay key c ds) = none := by
      refine Option.bind_eq_none_iff.mpr fun k hk => overlay_eq_none (fun d hd hdk => ?_) c
      exact h ⟨by simp [hk], d, hd, hdk.trans hk.symm⟩
    rw [hnone]

/-- The step of the simulation: gathering one column into groups gives the groups of the list
with that column at its end. -/
theorem gather_grouped (cs : List Column) (c : Column) :
    gather (grouped cs) c = grouped (cs ++ [c]) := by
  rw [gather_eq (nodup_keys_grouped cs)]
  simp only [isKnown_grouped]
  rw [grouped, grouped, leaders_append_singleton]
  by_cases h : IsKnown cs c
  · rw [if_pos h, if_pos h, List.map_map]
    refine List.map_congr_left fun d hd => ?_
    have hd := mem_of_mem_leaders hd
    rw [Function.comp_apply, key_entry hd, entry_append_singleton hd]
    have hk := h.1
    grind
  · rw [if_neg h, if_neg h, List.map_append]
    congr 1
    · refine List.map_congr_left fun d hd => ?_
      have hd := mem_of_mem_leaders hd
      rw [entry_append_singleton hd, if_neg]
      rintro ⟨hk, hdc⟩
      exact h ⟨hdc ▸ hk, d, hd, hdc⟩
    · rw [List.map_singleton, entry_self h]

/-- **Gathering is grouping**: the loop over the contributions ends with their groups. -/
theorem foldl_gather (cs : List Column) : cs.foldl gather [] = grouped cs := by
  induction cs using List.reverseRecOn with
  | nil => rfl
  | append_singleton cs c ih =>
      rw [List.foldl_append, ih, List.foldl_cons, List.foldl_nil, gather_grouped]

/-! ## Stable sorting -/

section
variable {α β : Type} [LinearOrder β] {rank : α → β}

/-- The list `ys` is the stable sort of `xs` by `rank`: the same elements, in ascending rank,
and those of equal rank as they stood. -/
structure StablySorted (rank : α → β) (xs ys : List α) : Prop where
  perm : ys.Perm xs
  sorted : ys.Pairwise fun a b => rank a ≤ rank b
  stable : ∀ c, ys.filter (fun a => rank a = rank c) = xs.filter fun a => rank a = rank c

/-- A sorted list is known by its parts of equal rank. -/
theorem eq_of_filter_rank_eq {xs ys : List α} (hx : xs.Pairwise fun a b => rank a ≤ rank b)
    (hy : ys.Pairwise fun a b => rank a ≤ rank b)
    (h : ∀ c, xs.filter (fun a => rank a = rank c) = ys.filter fun a => rank a = rank c) :
    xs = ys := by
  induction xs generalizing ys with
  | nil =>
      cases ys with
      | nil => rfl
      | cons y ys => simpa using h y
  | cons x xs ih =>
      cases ys with
      | nil => simpa using h x
      | cons y ys =>
          have hxy : x ∈ y :: ys := by
            have hx : x ∈ (y :: ys).filter fun a => rank a = rank x := by simp [← h]
            exact (List.mem_filter.mp hx).1
          have hyx : y ∈ x :: xs := by
            have hy : y ∈ (x :: xs).filter fun a => rank a = rank y := by simp [h]
            exact (List.mem_filter.mp hy).1
          have hr : rank x = rank y := by
            apply le_antisymm
            · rcases List.mem_cons.mp hyx with rfl | hm
              · exact le_rfl
              · exact (List.pairwise_cons.mp hx).1 y hm
            · rcases List.mem_cons.mp hxy with rfl | hm
              · exact le_rfl
              · exact (List.pairwise_cons.mp hy).1 x hm
          -- the heads have one rank, so the parts of that rank show that they are equal
          have hhead := h x
          simp only [List.filter_cons, hr, decide_true, if_true, List.cons.injEq] at hhead
          obtain ⟨rfl, -⟩ := hhead
          have htail := ih (List.pairwise_cons.mp hx).2 (List.pairwise_cons.mp hy).2 fun c => by
            have hfilter := h c
            simp only [List.filter_cons] at hfilter
            split at hfilter
            · exact (List.cons.inj hfilter).2
            · exact hfilter
          rw [htail]

/-- There is one stable sort. -/
theorem StablySorted.unique {xs ys zs : List α} (hy : StablySorted rank xs ys)
    (hz : StablySorted rank xs zs) : ys = zs :=
  eq_of_filter_rank_eq hy.sorted hz.sorted fun c => (hy.stable c).trans (hz.stable c).symm

/-- Merge sort is the stable sort. -/
theorem stablySorted_mergeSort (rank : α → β) (xs : List α) :
    StablySorted rank xs (xs.mergeSort fun a b => rank a ≤ rank b) := by
  have htrans : ∀ a b c : α, decide (rank a ≤ rank b) → decide (rank b ≤ rank c) →
      decide (rank a ≤ rank c) := by
    intro a b c hab hbc
    simp only [decide_eq_true_eq] at *
    exact hab.trans hbc
  have htotal : ∀ a b : α, decide (rank a ≤ rank b) || decide (rank b ≤ rank a) := by
    intro a b
    simpa using le_total (rank a) (rank b)
  have hperm := List.mergeSort_perm xs fun a b => rank a ≤ rank b
  refine ⟨hperm, by simpa using List.pairwise_mergeSort htrans htotal xs, fun c => ?_⟩
  have hclass : (xs.filter fun a => rank a = rank c).Pairwise
      fun a b => decide (rank a ≤ rank b) := by
    refine List.pairwise_of_forall_mem_list fun a ha b hb => ?_
    simp only [List.mem_filter, decide_eq_true_eq] at ha hb ⊢
    rw [ha.2, hb.2]
  have hsub := (List.sublist_mergeSort htrans htotal hclass List.filter_sublist).filter
    fun a => rank a = rank c
  simp only [List.filter_filter, Bool.and_self] at hsub
  exact (hsub.eq_of_length (hperm.filter _).length_eq.symm).symm

end

/-! ## The order of the columns -/

/-- Where a column stands: those without an order last, the others by their orders. -/
def Column.rank (c : Column) : Bool ×ₗ Int := toLex (decide (c.order = 0), c.order)

/-- Ordered columns come first, the others are last and equal. -/
theorem Column.rank_le_iff (a b : Column) :
    a.rank ≤ b.rank ↔ b.order = 0 ∨ a.order ≠ 0 ∧ a.order ≤ b.order := by
  simp only [Column.rank, Prod.Lex.toLex_le_toLex]
  by_cases ha : a.order = 0 <;> by_cases hb : b.order = 0 <;> simp [ha, hb]

/-- The comparison of the code is the one by rank. -/
theorem orderLe_eq_decide (a b : Column) : orderLe a b = decide (a.rank ≤ b.rank) := by
  rw [Bool.eq_iff_iff, decide_eq_true_iff, Column.rank_le_iff, orderLe]
  by_cases ha : a.order = 0 <;> by_cases hb : b.order = 0 <;> simp [ha, hb]

theorem Column.rank_eq_iff (a b : Column) : a.rank = b.rank ↔ a.order = b.order := by
  refine ⟨fun h => congrArg Prod.snd (toLex.injective h), fun h => ?_⟩
  rw [Column.rank, Column.rank, h]

/-- The columns of a type are its contributions, grouped and then sorted by rank. -/
theorem columnsFor_eq (blocks : List Block) (typeName : String) (catalog : Catalog) :
    columnsFor blocks typeName catalog =
      (grouped (contributionsFor blocks typeName catalog)).mergeSort
        fun a b => a.rank ≤ b.rank := by
  have hle : orderLe = fun a b => decide (a.rank ≤ b.rank) := by
    funext a b
    exact orderLe_eq_decide a b
  rw [columnsFor, foldl_gather, hle]

/-- Sorting by rank is sorting the columns with an order, and the others behind them. -/
theorem mergeSort_rank_eq_append (cs : List Column) :
    (cs.mergeSort fun a b => a.rank ≤ b.rank) =
      (cs.filter (·.order ≠ 0)).mergeSort (fun a b => a.order ≤ b.order) ++
        cs.filter (·.order = 0) := by
  have hsort := stablySorted_mergeSort Column.order (cs.filter (·.order ≠ 0))
  refine (stablySorted_mergeSort Column.rank cs).unique ⟨?_, ?_, ?_⟩
  · have hparts := List.filter_append_perm (fun c : Column => c.order ≠ 0) cs
    simp only [ne_eq, decide_not, Bool.not_not] at hparts
    exact (hsort.perm.append_right _).trans (by simpa using hparts)
  · refine List.pairwise_append.mpr ⟨?_, ?_, ?_⟩
    · refine hsort.sorted.imp_of_mem fun ha _ hab => (Column.rank_le_iff _ _).mpr ?_
      have ha := (List.mem_filter.mp (hsort.perm.mem_iff.mp ha)).2
      exact .inr ⟨by simpa using ha, hab⟩
    · refine List.pairwise_of_forall_mem_list fun a _ b hb => (Column.rank_le_iff _ _).mpr ?_
      exact .inl (by simpa using (List.mem_filter.mp hb).2)
    · intro a _ b hb
      exact (Column.rank_le_iff _ _).mpr (.inl (by simpa using (List.mem_filter.mp hb).2))
  · intro c
    have hstable := hsort.stable c
    simp only [Column.rank_eq_iff, List.filter_append]
    rw [hstable, List.filter_filter, List.filter_filter]
    by_cases hc : c.order = 0
    · have hnone : ∀ a ∈ cs, ¬ (decide (a.order = c.order) && decide (a.order ≠ 0)) = true := by
        simp [hc]
      rw [List.filter_eq_nil_iff.mpr hnone, List.nil_append]
      exact List.filter_congr (by simp [hc])
    · have hnone : ∀ a ∈ cs, ¬ (decide (a.order = c.order) && decide (a.order = 0)) = true := by
        grind
      rw [List.filter_eq_nil_iff.mpr hnone, List.append_nil]
      exact List.filter_congr (by grind)

/-! ## The columns of a type -/

/-- What the blocks for a type contribute to it: a block that names a type reflects the
properties of that type, any other block gives its own columns. -/
theorem contributionsFor_eq (blocks : List Block) (typeName : String) (catalog : Catalog) :
    contributionsFor blocks typeName catalog =
      (blocks.filter (typeName ∈ ·.types)).flatMap fun b =>
        if Text.trim (b.reflected.getD "") = "" then b.columns
        else
          (((catalog (Text.trim (b.reflected.getD ""))).getD []).filter (· ∉ b.skipped)).map
            Column.ofProperty := by
  have happlies : (fun b : Block => b.appliesTo typeName) =
      fun b => decide (typeName ∈ b.types) := by
    funext b
    simp [Block.appliesTo]
  rw [contributionsFor, blocksFor, happlies]
  refine List.flatMap_congr fun b _ => ?_
  unfold Block.contributions Block.reflectedType?
  cases b.reflected with
  | none => rfl
  | some name =>
      by_cases hblank : Text.trim name = ""
      · simp [hblank, Option.filter_some]
      · simp [hblank, Option.filter_some, Block.skips]

/-- **The columns of a type are its contributions, grouped by key and sorted stably by rank.**
No two of them share a key and no contributed key is lost; those with an order come first,
in ascending order, and the others keep the places where their groups begin. -/
theorem stablySorted_columnsFor (blocks : List Block) (typeName : String) (catalog : Catalog) :
    StablySorted Column.rank (grouped (contributionsFor blocks typeName catalog))
        (columnsFor blocks typeName catalog) ∧
      contributionsFor blocks typeName catalog =
        ((blocks.filter (typeName ∈ ·.types)).flatMap fun b =>
          if Text.trim (b.reflected.getD "") = "" then b.columns
          else
            (((catalog (Text.trim (b.reflected.getD ""))).getD []).filter (· ∉ b.skipped)).map
              Column.ofProperty) ∧
      ((columnsFor blocks typeName catalog).filterMap Column.key).Nodup ∧
      (∀ key, (∃ c ∈ columnsFor blocks typeName catalog, c.key = some key) ↔
        ∃ c ∈ contributionsFor blocks typeName catalog, c.key = some key) ∧
      columnsFor blocks typeName catalog =
        ((grouped (contributionsFor blocks typeName catalog)).filter (·.order ≠ 0)).mergeSort
            (fun a b => a.order ≤ b.order) ++
          (grouped (contributionsFor blocks typeName catalog)).filter (·.order = 0) := by
  have hsort := stablySorted_mergeSort Column.rank
    (grouped (contributionsFor blocks typeName catalog))
  rw [← columnsFor_eq] at hsort
  refine ⟨hsort, contributionsFor_eq blocks typeName catalog, ?_, fun key => ?_, ?_⟩
  · exact (hsort.perm.filterMap Column.key).nodup_iff.mpr (nodup_keys_grouped _)
  · simp only [hsort.perm.mem_iff]
    exact exists_key_grouped _ key
  · rw [columnsFor_eq, mergeSort_rank_eq_append]

end CmdletForge.Display
