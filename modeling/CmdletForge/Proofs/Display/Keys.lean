import Mathlib.Order.MinMax
import CmdletForge.Proofs.Display.Grouping
import CmdletForge.Proofs.Lists.Positions

/-!
# CmdletForge.Proofs.Display.Keys

The keys of columns, while columns are laid over one another.

1. A column has its key from the first of three fields that is set (`key_eq_some_iff`).  A column
   laid over another with the same key has it from the first of the fields that the two have it
   from (`KeyFrom.merge`), so it has that key whichever fields these are.
2. So a contribution that is gathered changes no key of the columns that are there: it is laid over
   the one column with its key, or it stands behind them (`keys_gather`).  All along, the keys are
   those that were contributed, each once and in the order in which they came up
   (`keys_gathered`), and no two columns share one (`keyLaw`).
-/

namespace CmdletForge.Display

/-! ## Fields -/

/-- The fields that a column can have its key from. -/
inductive KeyField where
  | property
  | label
  | script
  deriving DecidableEq, Repr

/-- When a field is looked at. -/
def KeyField.rank : KeyField → Nat
  | .property => 0
  | .label => 1
  | .script => 2

/-- No two fields are of one rank. -/
theorem KeyField.rank_injective : Function.Injective rank := by
  intro f g h
  cases f <;> cases g <;> simp_all [rank]

/-- Fields are in the order in which they are looked at. -/
instance : LinearOrder KeyField := LinearOrder.lift' KeyField.rank KeyField.rank_injective

namespace Column

/-- A field that may be the key. -/
def keyField (c : Column) : KeyField → Option String
  | .property => c.property
  | .label => c.label
  | .script => c.script

/-- A column whose key stands in a field: no field in front of it is set. -/
structure KeyFrom (c : Column) (f : KeyField) (k : String) : Prop where
  set : c.keyField f = some k
  unset : ∀ g < f, c.keyField g = none

/-- **The key is the first field that is set.** -/
theorem key_eq_some_iff {c : Column} : c.key = some k ↔ ∃ f, c.KeyFrom f k := by
  rw [key, Option.orElse_eq_some, Option.orElse_eq_some]
  constructor
  · rintro (hset | ⟨hproperty, hset | ⟨hlabel, hset⟩⟩)
    · refine ⟨.property, hset, fun g hg => ?_⟩
      cases g <;> exact absurd hg (by decide)
    · refine ⟨.label, hset, fun g hg => ?_⟩
      cases g with
      | property => exact hproperty
      | label | script => exact absurd hg (by decide)
    · refine ⟨.script, hset, fun g hg => ?_⟩
      cases g with
      | property => exact hproperty
      | label => exact hlabel
      | script => exact absurd hg (by decide)
  · rintro ⟨f, hset, hunset⟩
    cases f with
    | property => exact .inl hset
    | label => exact .inr ⟨hunset .property (by decide), .inl hset⟩
    | script =>
      exact .inr ⟨hunset .property (by decide), .inr ⟨hunset .label (by decide), hset⟩⟩

/-- A field of a column that is laid over another. -/
theorem keyField_merge (a b : Column) (f : KeyField) :
    (a.merge b).keyField f = (b.keyField f <|> a.keyField f) := by
  cases f <;> rfl

/-- **A column laid over another with the same key** has it from the first of the fields that the
two have it from. -/
theorem KeyFrom.merge {a b : Column} (ha : a.KeyFrom f k) (hb : b.KeyFrom g k) :
    (a.merge b).KeyFrom (min f g) k := by
  refine ⟨?set, fun h hlt => ?unset⟩
  case set =>
    rw [keyField_merge]
    rcases lt_or_ge f g with hfg | hgf
    · rw [min_eq_left hfg.le, hb.unset f hfg, ha.set]
      rfl
    · rw [min_eq_right hgf, hb.set]
      rfl
  case unset =>
    obtain ⟨hf, hg⟩ := lt_min_iff.mp hlt
    rw [keyField_merge, ha.unset h hf, hb.unset h hg]
    rfl

/-- A column with another key may take that of the column below it away. -/
example :
    ({ blank with label := some "Size" }.merge (ofProperty "Length")).key = some "Length" := by
  decide

end Column

/-! ## Gathering -/

/-- The keys of columns, in order. -/
def keysOf (cs : List Column) : List String := cs.filterMap Column.key

/-- The columns that are there when some contributions have been gathered. -/
def gathered (cs : List Column) : List Column := cs.foldl gather []

theorem mem_keysOf : k ∈ keysOf cs ↔ ∃ c ∈ cs, c.key = some k := List.mem_filterMap

theorem keysOf_append_singleton (cs : List Column) (c : Column) :
    keysOf (cs ++ [c]) = keysOf cs ++ c.key.toList := by
  rw [keysOf, List.filterMap_append, keysOf]
  cases hk : c.key <;> simp [hk]

theorem gathered_append_singleton (cs : List Column) (c : Column) :
    gathered (cs ++ [c]) = gather (gathered cs) c :=
  List.foldl_append ..

/-- A column is known when its key is among the keys. -/
theorem isKnown_iff_mem_keysOf (hk : c.key = some k) : IsKnown ds c ↔ k ∈ keysOf ds := by
  rw [IsKnown, hk, mem_keysOf, and_iff_right (Option.some_ne_none k)]

/-- **One contribution** changes no key, and a new key comes behind the others. -/
theorem keys_gather (hn : (keysOf ds).Nodup) (c : Column) :
    keysOf (gather ds c) = if IsKnown ds c then keysOf ds else keysOf ds ++ c.key.toList := by
  rw [gather_eq hn]
  split
  · next hknown =>
    obtain ⟨k, hk⟩ := Option.ne_none_iff_exists'.mp hknown.1
    rw [keysOf, List.filterMap_map]
    refine List.filterMap_congr fun d _ => ?_
    rw [Function.comp_apply]
    split
    · next hdk => rw [Column.key_merge (hdk.trans hk) hk, hdk, hk]
    · rfl
  · exact keysOf_append_singleton ds c

/-- **All contributions so far**: the keys are theirs, each once and in the order in which they came
up. -/
theorem keys_gathered (cs : List Column) : keysOf (gathered cs) = (keysOf cs).eraseDups := by
  induction cs using List.reverseRecOn with
  | nil => rfl
  | append_singleton cs c ih =>
    have hn : (keysOf (gathered cs)).Nodup := by
      rw [ih]
      exact nodup_eraseDups _
    rw [gathered_append_singleton, keys_gather hn, keysOf_append_singleton, ih]
    cases hk : c.key with
    | none => simp [IsKnown, hk]
    | some k =>
      rw [Option.toList_some, eraseDups_append_singleton]
      simp only [isKnown_iff_mem_keysOf hk, ih, List.mem_eraseDups]

/-- **No two columns share a key** at any time. -/
theorem nodup_keys_gathered (cs : List Column) : (keysOf (gathered cs)).Nodup := by
  rw [keys_gathered]
  exact nodup_eraseDups _

/-- What a contribution with a known key is laid over is the only column with that key. -/
theorem gather_of_mem (hn : (keysOf ds).Nodup) (hc : c.key = some k) (hk : k ∈ keysOf ds) :
    ∃ before d after, ds = before ++ d :: after ∧ d.key = some k ∧
      (∀ e ∈ before ++ after, e.key ≠ some k) ∧ gather ds c = before ++ d.merge c :: after := by
  have hknown : IsKnown ds c := (isKnown_iff_mem_keysOf hc).mpr hk
  obtain ⟨d, hd, hdk⟩ := mem_keysOf.mp hk
  obtain ⟨before, after, rfl⟩ := List.append_of_mem hd
  have hothers : ∀ e ∈ before ++ after, e.key ≠ some k := by
    rw [keysOf, List.filterMap_append, List.filterMap_cons_some hdk, List.nodup_middle,
      ← List.filterMap_append] at hn
    intro e he hek
    exact (List.nodup_cons.mp hn).1 (mem_keysOf.mpr ⟨e, he, hek⟩)
  have hsame : ∀ es : List Column, (∀ e ∈ es, e.key ≠ some k) →
      (es.map fun e => if e.key = c.key then e.merge c else e) = es := by
    intro es hes
    rw [hc, List.map_congr_left fun e he => if_neg (hes e he), List.map_id']
  obtain ⟨hbefore, hafter⟩ := List.forall_mem_append.mp hothers
  refine ⟨before, d, after, rfl, hdk, hothers, ?_⟩
  rw [gather_eq hn, if_pos hknown, List.map_append, List.map_cons, hsame before hbefore,
    hsame after hafter, if_pos (hdk.trans hc.symm)]

/-- A contribution with a new key stands behind the others. -/
theorem gather_of_not_mem (hn : (keysOf ds).Nodup) (hc : c.key = some k) (hk : k ∉ keysOf ds) :
    gather ds c = ds ++ [c] := by
  rw [gather_eq hn, if_neg]
  rwa [isKnown_iff_mem_keysOf hc]

/-! ## The law of keys -/

/-- What is to be said of the keys of columns that are laid over one another, and of those that are
gathered for a type. -/
structure KeyLaw : Prop where
  /-- Columns with the same key keep it when one is laid over the other... -/
  merge : ∀ (a b : Column) k, a.key = some k → b.key = some k → (a.merge b).key = some k
  /-- ...whichever fields they have it from: these are the first that are set... -/
  key_iff : ∀ (c : Column) k, c.key = some k ↔ ∃ f, c.KeyFrom f k
  /-- ...and the new column has it from the first of the two. -/
  merge_from : ∀ (a b : Column) f g k, a.KeyFrom f k → b.KeyFrom g k →
    (a.merge b).KeyFrom (min f g) k
  /-- While the columns of a type are gathered, no two of them share a key... -/
  nodup : ∀ blocks typeName catalog before, before <+: contributionsFor blocks typeName catalog →
    (keysOf (gathered before)).Nodup
  /-- ...and the keys are those of the contributions so far, in the order in which they came up. -/
  keys_eq : ∀ blocks typeName catalog before,
    before <+: contributionsFor blocks typeName catalog →
      keysOf (gathered before) = (keysOf before).eraseDups
  /-- The next contribution stands behind the columns when its key is new, or it is laid over the
  only column with its key, which stays the only one. -/
  step : ∀ blocks typeName catalog before c k,
    before ++ [c] <+: contributionsFor blocks typeName catalog → c.key = some k →
      (∀ d ∈ gathered before, d.key ≠ some k) ∧ gathered (before ++ [c]) = gathered before ++ [c] ∨
      ∃ front d rest, gathered before = front ++ d :: rest ∧ d.key = some k ∧
        (∀ e ∈ front ++ rest, e.key ≠ some k) ∧ (d.merge c).key = some k ∧
        gathered (before ++ [c]) = front ++ d.merge c :: rest
  /-- The columns of a type have all keys that were contributed, each once. -/
  columns : ∀ blocks typeName catalog,
    (keysOf (columnsFor blocks typeName catalog)).Perm
      (keysOf (contributionsFor blocks typeName catalog)).eraseDups

/-- **The law of keys.** -/
theorem keyLaw : KeyLaw where
  merge := fun _ _ _ ha hb => Column.key_merge ha hb
  key_iff := fun _ _ => Column.key_eq_some_iff
  merge_from := fun _ _ _ _ _ ha hb => ha.merge hb
  nodup := fun _ _ _ before _ => nodup_keys_gathered before
  keys_eq := fun _ _ _ before _ => keys_gathered before
  step := by
    intro _ _ _ before c k _ hc
    have hn := nodup_keys_gathered before
    rw [gathered_append_singleton]
    by_cases hk : k ∈ keysOf (gathered before)
    · obtain ⟨front, d, rest, hsplit, hdk, hothers, hgather⟩ := gather_of_mem hn hc hk
      exact .inr ⟨front, d, rest, hsplit, hdk, hothers, Column.key_merge hdk hc, hgather⟩
    · refine .inl ⟨fun d hd hdk => ?_, gather_of_not_mem hn hc hk⟩
      exact hk (mem_keysOf.mpr ⟨d, hd, hdk⟩)
  columns := by
    intro blocks typeName catalog
    rw [← keys_gathered]
    exact (List.mergeSort_perm _ _).filterMap Column.key

end CmdletForge.Display
