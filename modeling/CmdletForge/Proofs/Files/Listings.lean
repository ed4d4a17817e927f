import Mathlib.Data.List.Sort
import CmdletForge.Proofs.Files.Components

/-!
# CmdletForge.Proofs.Files.Listings

The files in and below a folder, by where they stand.

1. The paths that are listed are those of `Entry.places`, seen from the folder (`Entry.files_eq`).
2. In a folder as a file system has it (`Entry.IsOrderly`), the places are where files stand, in
   strictly ascending order (`IsOrderly.mem_places`, `IsOrderly.pairwise_places`).  This settles
   them: a folder comes where its name has its place, and all of it before the next name.
3. So the places below a folder inside are the places of that folder (`IsOrderly.filter_places`).
-/

namespace CmdletForge.Files

open CmdletForge.Path (join isAbsolute)

/-! ## Entries of a file system -/

/-- A name that a file system gives to entries. -/
structure IsProperName (name : String) : Prop extends IsFileName name where
  short : ¬ longestName < name.utf8ByteSize
  no_zero : Char.ofNat 0 ∉ name.toList

theorem IsProperName.isEntryName {name : String} (h : IsProperName name) : IsEntryName name :=
  ⟨h.not_idle, h.ne_up, h.short⟩

theorem IsProperName.isAbsolute_eq {name : String} (h : IsProperName name) :
    isAbsolute name = false := isAbsolute_of_not_mem h.no_slash

namespace Entry

/-- An entry as a file system has it: no two entries of a folder share a name. -/
inductive IsOrderly : Entry → Prop
  | file (text : Option String) : IsOrderly (.file text)
  | link (target : Path) : IsOrderly (.link target)
  | folder {entries : List (String × Entry)} (hnames : (entries.map (·.1)).Nodup)
      (hproper : ∀ x ∈ entries, IsProperName x.1) (hentries : ∀ x ∈ entries, IsOrderly x.2) :
      IsOrderly (.folder entries)

/-- What is looked up is an entry. -/
theorem mem_of_lookup {entries : List (String × Entry)} (h : entries.lookup name = some e) :
    (name, e) ∈ entries := by
  obtain ⟨before, after, rfl, -⟩ := List.lookup_eq_some_iff.mp h
  simp

/-- Under each name stands one entry. -/
theorem lookup_eq_of_mem {entries : List (String × Entry)} (hnames : (entries.map (·.1)).Nodup)
    (h : (name, e) ∈ entries) : entries.lookup name = some e := by
  obtain ⟨before, after, rfl⟩ := List.append_of_mem h
  refine List.lookup_eq_some_iff.mpr ⟨before, after, rfl, ?_⟩
  intro x hx
  rw [List.map_append, List.nodup_append] at hnames
  exact bne_iff_ne.mpr (hnames.2.2 x.1 (List.mem_map_of_mem hx) name (by simp)).symm

/-- All that is in an orderly folder is orderly. -/
theorem IsOrderly.get? {e e' : Entry} (h : e.IsOrderly) (hl : e.get? l = some e') :
    e'.IsOrderly := by
  induction l generalizing e with
  | nil =>
    obtain rfl : e = e' := by simpa using hl
    exact h
  | cons name l ih =>
    rw [get?_cons, Option.bind_eq_some_iff] at hl
    obtain ⟨child, hchild, hl⟩ := hl
    cases h with
    | folder hnames hproper hentries => exact ih (hentries _ (mem_of_lookup hchild)) hl
    | _ => contradiction

/-- The names on the way to an entry are proper. -/
theorem IsOrderly.isProperName {e e' : Entry} (h : e.IsOrderly) (hl : e.get? l = some e') :
    ∀ name ∈ l, IsProperName name := by
  induction l generalizing e with
  | nil => simp
  | cons name l ih =>
    rw [get?_cons, Option.bind_eq_some_iff] at hl
    obtain ⟨child, hchild, hl⟩ := hl
    cases h with
    | folder hnames hproper hentries =>
      rw [List.forall_mem_cons]
      have hmem := mem_of_lookup hchild
      exact ⟨hproper _ hmem, ih (hentries _ hmem) hl⟩
    | _ => contradiction

theorem IsOrderly.isFileName {e e' : Entry} (h : e.IsOrderly) (hl : e.get? l = some e') :
    ∀ name ∈ l, IsFileName name := fun name hname => (h.isProperName hl name hname).toIsFileName

end Entry

/-! ## Places -/

mutual

/-- Where the files in and below an entry stand, in the order in which they are listed. -/
def Entry.places : Entry → List Location
  | .file _ => [[]]
  | .link _ => []
  | .folder entries => (Text.sortByName (entriesPlaces entries)).flatMap (·.2)

/-- For each entry of a folder its name and where the files in and below it stand. -/
def entriesPlaces : List (String × Entry) → List (String × List Location)
  | [] => []
  | (name, e) :: rest => (name, e.places.map (name :: ·)) :: entriesPlaces rest

end

/-- Sorting by names does not look at anything else. -/
theorem map_sortByName {α β : Type} (f : String × α → String × β) (hf : ∀ x, (f x).1 = x.1)
    (pairs : List (String × α)) :
    (Text.sortByName pairs).map f = Text.sortByName (pairs.map f) :=
  List.map_mergeSort fun a _ b _ => by rw [hf, hf]

mutual

/-- **The paths of the files** are those of their places. -/
theorem Entry.files_eq (p : Path) : (e : Entry) → e.files p = e.places.map (pathBelow p)
  | .file _ => rfl
  | .link _ => rfl
  | .folder entries => by
    have hsort := map_sortByName
      (fun x : String × List Location => (x.1, x.2.map (pathBelow p))) (fun _ => rfl)
    rw [Entry.files, Entry.places, entriesFiles_eq p entries, ← hsort, List.flatMap_map,
      List.map_flatMap]

theorem entriesFiles_eq (p : Path) : (entries : List (String × Entry)) →
    entriesFiles p entries = (entriesPlaces entries).map fun x => (x.1, x.2.map (pathBelow p))
  | [] => rfl
  | (name, e) :: rest => by
    rw [entriesFiles, entriesPlaces, List.map_cons, ← entriesFiles_eq p rest,
      e.files_eq (join p name), List.map_map]
    rfl

end

/-- The places of entries, each below its name. -/
theorem entriesPlaces_eq (entries : List (String × Entry)) :
    entriesPlaces entries = entries.map fun x => (x.1, x.2.places.map (x.1 :: ·)) := by
  induction entries with
  | nil => rfl
  | cons x entries ih =>
    obtain ⟨name, e⟩ := x
    rw [entriesPlaces, ih, List.map_cons]

/-- The files of a folder are those of its entries, in the order of their names. -/
theorem places_folder (entries : List (String × Entry)) :
    (Entry.folder entries).places =
      (Text.sortByName entries).flatMap fun x => x.2.places.map (x.1 :: ·) := by
  have hsort := map_sortByName
    (fun x : String × Entry => (x.1, x.2.places.map (x.1 :: ·))) (fun _ => rfl)
  rw [Entry.places, entriesPlaces_eq, ← hsort, List.flatMap_map]

theorem mem_sortByName {α : Type} {pairs : List (String × α)} {x : String × α} :
    x ∈ Text.sortByName pairs ↔ x ∈ pairs := (List.mergeSort_perm pairs _).mem_iff

/-- Pairs with different names are put in strictly ascending order. -/
theorem pairwise_sortByName {α : Type} {pairs : List (String × α)}
    (h : (pairs.map (·.1)).Nodup) :
    (Text.sortByName pairs).Pairwise fun x y => x.1 < y.1 := by
  have hle : ∀ {x y : String}, Text.le x y = true ↔ x ≤ y := by
    intro x y
    rw [Text.le, Bool.not_eq_true', decide_eq_false_iff_not, String.not_lt]
  have hsorted : (Text.sortByName pairs).Pairwise fun x y => Text.le x.1 y.1 = true := by
    refine List.pairwise_mergeSort ?_ ?_ pairs
    · intro x y z hxy hyz
      exact hle.mpr (String.le_trans (hle.mp hxy) (hle.mp hyz))
    · intro x y
      rw [Bool.or_eq_true, hle, hle]
      exact String.le_total x.1 y.1
  have hnames : (Text.sortByName pairs).Pairwise fun x y => x.1 ≠ y.1 :=
    List.pairwise_map.mp (((List.mergeSort_perm pairs _).map _).nodup_iff.mpr h)
  refine (hsorted.and hnames).imp fun ⟨hxy, hne⟩ => ?_
  exact String.not_le.mp fun hyx => hne (String.le_antisymm (hle.mp hxy) hyx)

namespace Entry

/-- **The places are where files stand.** -/
theorem IsOrderly.mem_places {e : Entry} (h : e.IsOrderly) (l : Location) :
    l ∈ e.places ↔ ∃ text, e.get? l = some (.file text) := by
  induction h generalizing l with
  | file text =>
    cases l with
    | nil => simp [places]
    | cons name l => simp [places, child?]
  | link target =>
    cases l with
    | nil => simp [places]
    | cons name l => simp [places, child?]
  | @folder entries hnames hproper hentries ih =>
    simp only [places_folder, List.mem_flatMap, mem_sortByName, List.mem_map]
    constructor
    · rintro ⟨x, hx, l, hl, rfl⟩
      obtain ⟨text, htext⟩ := (ih x hx l).mp hl
      refine ⟨text, ?_⟩
      rw [get?_cons, child?, lookup_eq_of_mem hnames hx]
      exact htext
    · rintro ⟨text, htext⟩
      cases l with
      | nil => simp at htext
      | cons name l =>
        rw [get?_cons, Option.bind_eq_some_iff] at htext
        obtain ⟨child, hchild, htext⟩ := htext
        have hmem := mem_of_lookup hchild
        exact ⟨_, hmem, l, (ih _ hmem l).mpr ⟨text, htext⟩, rfl⟩

/-- **The places come in strictly ascending order**, name by name: so the files of a folder come
where its name has its place. -/
theorem IsOrderly.pairwise_places {e : Entry} (h : e.IsOrderly) : e.places.Pairwise (· < ·) := by
  induction h with
  | file text => simp [places]
  | link target => simp [places]
  | @folder entries hnames hproper hentries ih =>
    rw [places_folder, List.pairwise_flatMap]
    constructor
    · intro x hx
      rw [List.pairwise_map]
      exact (ih x (mem_sortByName.mp hx)).imp fun hlt => List.cons_lt_cons_iff.mpr (.inr ⟨rfl, hlt⟩)
    · refine (pairwise_sortByName hnames).imp fun hlt l hl l' hl' => ?_
      obtain ⟨_, -, rfl⟩ := List.mem_map.mp hl
      obtain ⟨_, -, rfl⟩ := List.mem_map.mp hl'
      exact List.cons_lt_cons_iff.mpr (.inl hlt)

/-- **The places below a folder** are those of the folder, behind the way to it. -/
theorem IsOrderly.filter_places {e folder : Entry} (h : e.IsOrderly)
    (hfolder : e.get? names = some folder) :
    e.places.filter (fun l => names.isPrefixOf l) = folder.places.map (names ++ ·) := by
  have hinner := h.get? hfolder
  refine List.Pairwise.eq_of_mem_iff (h.pairwise_places.filter _) ?_ ?_
  · rw [List.pairwise_map]
    exact hinner.pairwise_places.imp List.append_left_lt
  · intro l
    simp only [List.mem_filter, List.isPrefixOf_iff_prefix, List.mem_map, h.mem_places,
      hinner.mem_places]
    constructor
    · rintro ⟨⟨text, htext⟩, rest, rfl⟩
      rw [get?_append, hfolder] at htext
      exact ⟨rest, ⟨text, htext⟩, rfl⟩
    · rintro ⟨rest, ⟨text, htext⟩, rfl⟩
      refine ⟨⟨text, ?_⟩, List.prefix_append _ _⟩
      rw [get?_append, hfolder]
      exact htext

end Entry

end CmdletForge.Files
