import Mathlib.Logic.Function.Basic
import CmdletForge.Files.Tree

/-!
# CmdletForge.Proofs.Files.Entries

What an entry that is put into a tree changes.

1. An entry is put where its folder is, in the place of a file or where nothing was.  What can be
   seen of the other locations without looking into folders is as it was (`see_put`).
2. `Entry.wayAt` is the folder or link at a location, and `Entry.fileAt` is what the file there
   holds.  `see_put` serves both.
3. Files that are written one after the other leave `overwritten`.
-/

namespace CmdletForge.Files

/-! ## Names in a folder -/

theorem lookup_cons_self (name : String) (e : Entry) (rest : List (String × Entry)) :
    ((name, e) :: rest).lookup name = some e := by
  simp

theorem lookup_cons_of_ne {name other : String} (h : other ≠ name) (e : Entry)
    (rest : List (String × Entry)) : ((name, e) :: rest).lookup other = rest.lookup other := by
  have hbeq : (other == name) = false := beq_eq_false_iff_ne.mpr h
  simp [List.lookup_cons, hbeq]

theorem lookup_putEntry_self (name : String) (e : Entry) (entries : List (String × Entry)) :
    (putEntry name e entries).lookup name = some e := by
  induction entries with
  | nil => exact lookup_cons_self name e []
  | cons entry rest ih =>
    obtain ⟨other, old⟩ := entry
    by_cases h : other = name
    · simp only [putEntry, h, if_true, lookup_cons_self]
    · simp only [putEntry, h, if_false, lookup_cons_of_ne (Ne.symm h), ih]

theorem lookup_putEntry_of_ne {name other : String} (h : other ≠ name) (e : Entry)
    (entries : List (String × Entry)) :
    (putEntry name e entries).lookup other = entries.lookup other := by
  induction entries with
  | nil => exact lookup_cons_of_ne h e []
  | cons entry rest ih =>
    obtain ⟨first, old⟩ := entry
    by_cases hfirst : first = name
    · subst hfirst
      simp only [putEntry, if_true, lookup_cons_of_ne h]
    · by_cases hother : other = first
      · subst hother
        simp only [putEntry, hfirst, if_false, lookup_cons_self]
      · simp only [putEntry, hfirst, if_false, lookup_cons_of_ne hother, ih]

namespace Entry

/-! ## Locations -/

@[simp] theorem get?_nil (e : Entry) : e.get? [] = some e := by
  cases e <;> rfl

@[simp] theorem get?_cons (e : Entry) (name : String) (l : Location) :
    e.get? (name :: l) = (e.child? name).bind (·.get? l) := by
  cases e <;> rfl

/-- A location is followed in two parts. -/
theorem get?_append (e : Entry) (a b : Location) :
    e.get? (a ++ b) = (e.get? a).bind (·.get? b) := by
  induction a generalizing e with
  | nil => simp
  | cons name a ih => simp [ih, Option.bind_assoc]

/-- What stands in a folder. -/
theorem get?_append_singleton {e : Entry} (h : e.get? l = some (.folder entries)) (name : String) :
    e.get? (l ++ [name]) = entries.lookup name := by
  rw [get?_append, h]
  simp [child?]

/-! ## Entries that are put -/

/-- An entry with nothing in it. -/
def IsBare (e : Entry) : Prop := ∀ name, e.child? name = none

theorem isBare_file (text : Option String) : IsBare (.file text) := fun _ => rfl

theorem isBare_emptyFolder : IsBare (.folder []) := fun _ => rfl

theorem IsBare.get?_cons (h : IsBare e) (name : String) (l : Location) :
    e.get? (name :: l) = none := by
  simp [h name]

/-- What can be seen of an entry without looking into folders. -/
def IsOutside {β : Type} (see : Entry → Option β) : Prop :=
  ∀ a b, see (.folder a) = see (.folder b)

section
variable {name : String} {new : Entry} {entries : List (String × Entry)} {l : Location}

theorem put_singleton :
    put new (.folder entries) [name] = .folder (putEntry name new entries) := rfl

/-- A put in a folder inside leaves the rest of the outer one. -/
theorem put_cons {within : Entry} (h : entries.lookup name = some within) :
    put new (.folder entries) (name :: l) = .folder (putEntry name (put new within l) entries) := by
  simp [put, h]

theorem get?_putEntry_self :
    (folder (putEntry name new entries)).get? (name :: l) = new.get? l := by
  simp [child?, lookup_putEntry_self]

theorem get?_putEntry_of_ne {other : String} (h : other ≠ name) :
    (folder (putEntry name new entries)).get? (other :: l) =
      (folder entries).get? (other :: l) := by
  simp [child?, lookup_putEntry_of_ne h]

end

section
variable {β : Type} {see : Entry → Option β} {e new : Entry} {folder : Location} {name : String}

/-- There is nothing in an entry that is bare, if it is there at all. -/
theorem get?_append_cons_eq_none (h : ∀ old, e.get? l = some old → IsBare old) (name : String)
    (rest : Location) : e.get? (l ++ name :: rest) = none := by
  rw [get?_append]
  cases hold : e.get? l with
  | none => rfl
  | some old => exact (h old hold).get?_cons name rest

/-- A bare entry that is put into a folder, in the place of a bare one or where nothing was, is
seen at its location and nowhere else. -/
theorem see_put (hsee : IsOutside see) (hfolder : e.get? folder = some (.folder entries))
    (hnew : IsBare new) (hold : ∀ old, e.get? (folder ++ [name]) = some old → IsBare old)
    (l : Location) :
    ((put new e (folder ++ [name])).get? l).bind see =
      if l = folder ++ [name] then see new else (e.get? l).bind see := by
  induction folder generalizing e l with
  | nil =>
    obtain rfl : e = .folder entries := by simpa using hfolder
    rw [List.nil_append, put_singleton]
    cases l with
    | nil => simpa using hsee _ _
    | cons other l =>
      by_cases hother : other = name
      · subst hother
        rw [get?_putEntry_self]
        cases l with
        | nil => simp
        | cons inner l =>
          have hbelow : (Entry.folder entries).get? (other :: inner :: l) = none :=
            get?_append_cons_eq_none hold inner l
          rw [hnew.get?_cons, hbelow]
          simp
      · rw [get?_putEntry_of_ne hother]
        simp [hother]
  | cons first folder ih =>
    obtain ⟨within, hwithin, hinner⟩ : ∃ within, e.child? first = some within ∧
        within.get? folder = some (.folder entries) := by
      simpa [Option.bind_eq_some_iff] using hfolder
    obtain ⟨outer, rfl⟩ : ∃ outer, e = .folder outer := by
      cases e <;> simp [child?] at hwithin ⊢
    rw [List.cons_append, put_cons hwithin]
    cases l with
    | nil => simpa using hsee _ _
    | cons other l =>
      by_cases hother : other = first
      · subst hother
        have hbare : ∀ old, within.get? (folder ++ [name]) = some old → IsBare old := by
          intro old hget
          exact hold old (by simp [hwithin, hget])
        rw [get?_putEntry_self, ih hinner hbare l]
        simp [hwithin]
      · rw [get?_putEntry_of_ne hother]
        simp [hother]

end

end Entry

/-! ## Ways and files -/

/-- What a walk is led on by: a folder, or a link to a path. -/
inductive Way where
  | folder
  | link (target : Path)
  deriving DecidableEq, Repr

namespace Entry

/-- The way that an entry is, unless it is a file. -/
def way? : Entry → Option Way
  | .file _ => none
  | .link target => some (.link target)
  | .folder _ => some .folder

/-- What a file holds: a text, or bytes that are none. -/
def held? : Entry → Option (Option String)
  | .file text => some text
  | _ => none

theorem isOutside_way? : IsOutside way? := fun _ _ => rfl

theorem isOutside_held? : IsOutside held? := fun _ _ => rfl

/-- The way that stands at a location. -/
def wayAt (e : Entry) (l : Location) : Option Way := (e.get? l).bind way?

/-- What the file at a location holds. -/
def fileAt (e : Entry) (l : Location) : Option (Option String) := (e.get? l).bind held?

section
variable {e : Entry} {l : Location}

/-- A folder on the way is a folder of the tree. -/
theorem wayAt_eq_folder_iff :
    e.wayAt l = some .folder ↔ ∃ entries, e.get? l = some (.folder entries) := by
  unfold wayAt
  cases e.get? l with
  | none => simp
  | some e => cases e <;> simp [way?]

theorem wayAt_eq_link_iff {target : Path} :
    e.wayAt l = some (.link target) ↔ e.get? l = some (.link target) := by
  unfold wayAt
  cases e.get? l with
  | none => simp
  | some e => cases e <;> simp [way?]

theorem fileAt_eq_some_iff {text : Option String} :
    e.fileAt l = some text ↔ e.get? l = some (.file text) := by
  unfold fileAt
  cases e.get? l with
  | none => simp
  | some e => cases e <;> simp [held?]

/-- What is no way is a file. -/
theorem wayAt_eq_none_iff :
    e.wayAt l = none ↔ e.get? l = none ∨ ∃ text, e.get? l = some (.file text) := by
  unfold wayAt
  cases e.get? l with
  | none => simp
  | some e => cases e <;> simp [way?]

/-- What is no way holds nothing. -/
theorem isBare_of_wayAt_eq_none (h : e.wayAt l = none) (old : Entry) (hget : e.get? l = some old) :
    IsBare old := by
  obtain hnone | ⟨text, hfile⟩ := wayAt_eq_none_iff.mp h
  · simp [hnone] at hget
  · obtain rfl : Entry.file text = old := by simpa [hfile] using hget
    exact isBare_file text

end

section
variable {e : Entry} {folder : Location} {name : String}

/-- A file is no way, so putting one leaves all ways... -/
theorem wayAt_put_file (hfolder : e.wayAt folder = some .folder)
    (hold : e.wayAt (folder ++ [name]) = none) (text : Option String) :
    (put (.file text) e (folder ++ [name])).wayAt = e.wayAt := by
  obtain ⟨entries, hentries⟩ := wayAt_eq_folder_iff.mp hfolder
  funext l
  have hseen := see_put isOutside_way? hentries (isBare_file text) (isBare_of_wayAt_eq_none hold) l
  by_cases hl : l = folder ++ [name]
  · subst hl
    rw [hold, wayAt, hseen, if_pos rfl]
    rfl
  · rw [wayAt, hseen, if_neg hl, wayAt]

/-- ...and of the files it changes one. -/
theorem fileAt_put_file (hfolder : e.wayAt folder = some .folder)
    (hold : e.wayAt (folder ++ [name]) = none) (text : Option String) :
    (put (.file text) e (folder ++ [name])).fileAt =
      Function.update e.fileAt (folder ++ [name]) (some text) := by
  obtain ⟨entries, hentries⟩ := wayAt_eq_folder_iff.mp hfolder
  funext l
  have hseen := see_put isOutside_held? hentries (isBare_file text) (isBare_of_wayAt_eq_none hold) l
  rw [Function.update_apply, fileAt, hseen]
  rfl

/-- A new folder changes no file. -/
theorem fileAt_put_folder (hfolder : e.wayAt folder = some .folder)
    (hold : e.get? (folder ++ [name]) = none) :
    (put (.folder []) e (folder ++ [name])).fileAt = e.fileAt := by
  obtain ⟨entries, hentries⟩ := wayAt_eq_folder_iff.mp hfolder
  have hbare : ∀ old, e.get? (folder ++ [name]) = some old → IsBare old := by simp [hold]
  funext l
  have hseen := see_put isOutside_held? hentries isBare_emptyFolder hbare l
  by_cases hl : l = folder ++ [name]
  · subst hl
    rw [fileAt, hseen, if_pos rfl, fileAt, hold]
    rfl
  · rw [fileAt, hseen, if_neg hl, fileAt]

end

end Entry

/-! ## Files that are written over -/

/-- The files of a tree, some of which are written over in turn. -/
def overwritten (files : Location → Option (Option String)) (puts : List (Location × String)) :
    Location → Option (Option String) :=
  puts.foldl (fun files (l, text) => Function.update files l (some (some text))) files

section
variable {files : Location → Option (Option String)}

@[simp] theorem overwritten_cons (l : Location) (text : String) (puts : List (Location × String)) :
    overwritten files ((l, text) :: puts) =
      overwritten (Function.update files l (some (some text))) puts := rfl

/-- A location that nothing is written to is as it was. -/
theorem overwritten_of_not_mem {puts : List (Location × String)} (h : ∀ q ∈ puts, q.1 ≠ l) :
    overwritten files puts l = files l := by
  induction puts generalizing files with
  | nil => rfl
  | cons q puts ih =>
    rw [List.forall_mem_cons] at h
    rw [overwritten_cons, ih h.2, Function.update_of_ne (Ne.symm h.1)]

end

end CmdletForge.Files
