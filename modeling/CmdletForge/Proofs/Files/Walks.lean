import CmdletForge.Proofs.Files.Entries

/-!
# CmdletForge.Proofs.Files.Walks

Where a path leads, said without the walk.

1. `Leads` is a walk to a folder, one rule for each segment that a walk can meet, and `Lands` is
   the way to the file that a text is written to.  `leads_iff` and `lands_iff` tie them to the
   walks that are run.
2. Both speak of folders and links alone.  Two trees with the same ways lead every path to the
   same places, whatever their files are, so nothing has to be walked again after a file was
   written.
3. A walk to a folder goes on to a file in it (`Leads.walk_file`).
-/

namespace CmdletForge.Files

open CmdletForge.Path (segments isIdle)

theorem bind_eq_ok_iff {α β ε : Type} {x : Except ε α} {f : α → Except ε β} {y : β} :
    x >>= f = .ok y ↔ ∃ a, x = .ok a ∧ f a = .ok y := by
  cases x with
  | error e => simp [bind, Except.bind]
  | ok a => simp [bind, Except.bind]

/-- A segment that stands for an entry of a folder. -/
structure IsEntryName (name : String) : Prop where
  not_idle : isIdle name = false
  ne_up : name ≠ ".."
  short : ¬ longestName < name.utf8ByteSize

/-! ## Walks to folders -/

/-- The folder at `at_` and the segments lead to the folder at `l`, over at most `links` links. -/
inductive Leads (ways : Location → Option Way) :
    (links : Nat) → (at_ : Location) → (names : List String) → (l : Location) → Prop
  | here (hat : ways at_ = some .folder) : Leads ways links at_ [] at_
  | idle (hat : ways at_ = some .folder) (hname : isIdle name = true)
      (hrest : Leads ways links at_ rest l) : Leads ways links at_ (name :: rest) l
  | up (hat : ways at_ = some .folder) (hrest : Leads ways links at_.dropLast rest l) :
      Leads ways links at_ (".." :: rest) l
  | down (hat : ways at_ = some .folder) (hname : IsEntryName name)
      (hway : ways (at_ ++ [name]) = some .folder)
      (hrest : Leads ways links (at_ ++ [name]) rest l) : Leads ways links at_ (name :: rest) l
  | link (hat : ways at_ = some .folder) (hname : IsEntryName name)
      (hway : ways (at_ ++ [name]) = some (.link target)) (htarget : target.isEmpty = false)
      (hrest : Leads ways links (startOf at_ target) (segments target ++ rest) l) :
      Leads ways (links + 1) at_ (name :: rest) l

/-- The folder at `at_` and the segments lead to the place of a file, over at most `links` links
that stand in its place. -/
inductive Lands (ways : Location → Option Way) :
    (links : Nat) → (at_ : Location) → (names : List String) → (l : Location) → Prop
  | file (hlast : Tree.last names = .name before name false)
      (hhome : Leads ways links at_ before home) (hshort : ¬ longestName < name.utf8ByteSize)
      (hway : ways (home ++ [name]) = none) : Lands ways links at_ names (home ++ [name])
  | link (hlast : Tree.last names = .name before name false)
      (hhome : Leads ways (links + 1) at_ before home)
      (hshort : ¬ longestName < name.utf8ByteSize)
      (hway : ways (home ++ [name]) = some (.link target)) (htarget : target.isEmpty = false)
      (hrest : Lands ways links (startOf home target) (segments target) l) :
      Lands ways (links + 1) at_ names l

variable {root : Entry} {ways : Location → Option Way} {links : Nat} {at_ l home : Location}
variable {name : String} {names rest : List String} {target : Path}

/-- Where a walk goes on from a link. -/
def walkLink (root : Entry) (links : Nat) (at_ : Location) (target : Path) (rest : List String) :
    Except Cause Location :=
  match links with
  | 0 => .error .tooManyLinks
  | links + 1 =>
    if target.isEmpty then .error .notFound
    else walk root links (startOf at_ target) (segments target ++ rest)

/-- A link is followed while any are left, and not to an empty target. -/
theorem walkLink_eq_ok_iff :
    walkLink root links at_ target rest = .ok l ↔
      ∃ fewer, links = fewer + 1 ∧ target.isEmpty = false ∧
        walk root fewer (startOf at_ target) (segments target ++ rest) = .ok l := by
  cases links with
  | zero => simp [walkLink]
  | succ fewer => cases htarget : target.isEmpty <;> simp [walkLink, htarget]

theorem walk_eq (root : Entry) (links : Nat) (at_ : Location) (names : List String) :
    walk root links at_ names = walkWith root (walkLink root links) at_ names := by
  cases links <;> rfl

@[simp] theorem walk_nil : walk root links at_ [] = .ok at_ := by
  rw [walk_eq, walkWith]

/-- A walk goes on from folders only. -/
theorem wayAt_of_walk_cons (h : walk root links at_ (name :: rest) = .ok l) :
    root.wayAt at_ = some .folder := by
  rw [walk_eq, walkWith] at h
  split at h
  · next entries hentries => exact Entry.wayAt_eq_folder_iff.mpr ⟨entries, hentries⟩
  · contradiction

/-- From what is no way a walk goes nowhere. -/
theorem eq_of_walk_of_wayAt_eq_none (hat : root.wayAt at_ = none)
    (h : walk root links at_ names = .ok l) : at_ = l := by
  cases names with
  | nil => simpa using h
  | cons name rest => simp [wayAt_of_walk_cons h] at hat

section
variable (hat : root.wayAt at_ = some .folder)
include hat

theorem walk_cons_idle (hname : isIdle name = true) :
    walk root links at_ (name :: rest) = walk root links at_ rest := by
  obtain ⟨entries, hentries⟩ := Entry.wayAt_eq_folder_iff.mp hat
  rw [walk_eq, walkWith, hentries, walk_eq]
  simp [hname]

theorem walk_cons_up :
    walk root links at_ (".." :: rest) = walk root links at_.dropLast rest := by
  obtain ⟨entries, hentries⟩ := Entry.wayAt_eq_folder_iff.mp hat
  have hidle : isIdle ".." = false := by decide
  rw [walk_eq, walkWith, hentries, walk_eq]
  simp [hidle]

/-- What the entry of a name does to a walk. -/
theorem walk_cons_name (hname : IsEntryName name) :
    walk root links at_ (name :: rest) =
      match root.get? (at_ ++ [name]) with
      | none => .error .notFound
      | some (.link target) => walkLink root links at_ target rest
      | some _ => walk root links (at_ ++ [name]) rest := by
  obtain ⟨entries, hentries⟩ := Entry.wayAt_eq_folder_iff.mp hat
  rw [walk_eq, walkWith, hentries, Entry.get?_append_singleton hentries]
  rcases hlookup : entries.lookup name with _ | ⟨_ | _ | _⟩ <;>
    simp [hlookup, hname.not_idle, hname.ne_up, hname.short, walk_eq]

end

/-- What a segment is to a walk that gets past it. -/
theorem name_cases (h : walk root links at_ (name :: rest) = .ok l) :
    isIdle name = true ∨ name = ".." ∨ IsEntryName name := by
  obtain ⟨entries, hentries⟩ := Entry.wayAt_eq_folder_iff.mp (wayAt_of_walk_cons h)
  rw [walk_eq, walkWith, hentries] at h
  by_cases hidle : isIdle name = true
  · exact .inl hidle
  · by_cases hup : name = ".."
    · exact .inr (.inl hup)
    · by_cases hshort : longestName < name.utf8ByteSize
      · simp [hidle, hup, hshort] at h
      · exact .inr (.inr ⟨by simpa using hidle, hup, hshort⟩)

/-- What leads to a location is walked to it. -/
theorem walk_of_leads (h : Leads root.wayAt links at_ names l) :
    walk root links at_ names = .ok l := by
  induction h with
  | here hat => exact walk_nil
  | idle hat hname hrest ih => rw [walk_cons_idle hat hname, ih]
  | up hat hrest ih => rw [walk_cons_up hat, ih]
  | down hat hname hway hrest ih =>
    obtain ⟨entries, hentries⟩ := Entry.wayAt_eq_folder_iff.mp hway
    rw [walk_cons_name hat hname, hentries, ih]
  | link hat hname hway htarget hrest ih =>
    rw [walk_cons_name hat hname, Entry.wayAt_eq_link_iff.mp hway]
    exact walkLink_eq_ok_iff.mpr ⟨_, rfl, htarget, ih⟩

theorem Leads.wayAt_eq (h : Leads ways links at_ names l) : ways l = some .folder := by
  induction h with
  | here hat => exact hat
  | idle _ _ _ ih => exact ih
  | up _ _ ih => exact ih
  | down _ _ _ _ ih => exact ih
  | link _ _ _ _ _ ih => exact ih

/-- The outer induction is on the links that are left, for a link puts its own segments in front
of the others; between two links the segments get fewer. -/
theorem leads_of_walk (h : walk root links at_ names = .ok l) (hl : root.wayAt l = some .folder) :
    Leads root.wayAt links at_ names l := by
  induction links using Nat.strongRecOn generalizing at_ names with
  | ind links ihlinks =>
    induction names generalizing at_ with
    | nil =>
      obtain rfl : at_ = l := by simpa using h
      exact .here hl
    | cons name rest ih =>
      have hat := wayAt_of_walk_cons h
      rcases name_cases h with hname | rfl | hname
      · rw [walk_cons_idle hat hname] at h
        exact .idle hat hname (ih h)
      · rw [walk_cons_up hat] at h
        exact .up hat (ih h)
      · rw [walk_cons_name hat hname] at h
        cases hentry : root.get? (at_ ++ [name]) with
        | none => simp [hentry] at h
        | some e =>
          simp only [hentry] at h
          cases e with
          | file text =>
            -- a file ends a walk, but here the walk ends at a folder
            have hfile := Entry.wayAt_eq_none_iff.mpr (.inr ⟨text, hentry⟩)
            obtain rfl := eq_of_walk_of_wayAt_eq_none hfile h
            simp [hfile] at hl
          | link target =>
            obtain ⟨fewer, rfl, htarget, hrest⟩ := walkLink_eq_ok_iff.mp h
            exact .link hat hname (Entry.wayAt_eq_link_iff.mpr hentry) htarget
              (ihlinks fewer (Nat.lt_succ_self fewer) hrest)
          | folder entries =>
            exact .down hat hname (Entry.wayAt_eq_folder_iff.mpr ⟨entries, hentry⟩) (ih h)

/-- A path leads exactly where it is walked to, if that is a folder. -/
theorem leads_iff :
    Leads root.wayAt links at_ names l ↔
      walk root links at_ names = .ok l ∧ root.wayAt l = some .folder :=
  ⟨fun h => ⟨walk_of_leads h, h.wayAt_eq⟩, fun h => leads_of_walk h.1 h.2⟩

theorem folderAt_eq_ok_iff {t : Tree} :
    t.folderAt links at_ names = .ok l ↔ Leads t.root.wayAt links at_ names l := by
  rw [leads_iff, Entry.wayAt_eq_folder_iff, Tree.folderAt]
  rw [bind_eq_ok_iff]
  constructor
  · rintro ⟨reached, hreached, h⟩
    split at h
    · next entries hentries =>
      obtain rfl : reached = l := Except.ok.inj h
      exact ⟨hreached, entries, hentries⟩
    · contradiction
  · rintro ⟨hwalk, entries, hentries⟩
    exact ⟨l, hwalk, by simp only [hentries]; rfl⟩

/-! ## Segments at the end -/

/-- A segment that names nothing can follow. -/
theorem Leads.append_idle (h : Leads ways links at_ names l) (hname : isIdle name = true) :
    Leads ways links at_ (names ++ [name]) l := by
  induction h with
  | here hat => exact .idle hat hname (.here hat)
  | idle hat hidle hrest ih => exact .idle hat hidle ih
  | up hat hrest ih => exact .up hat ih
  | down hat hentry hway hrest ih => exact .down hat hentry hway ih
  | link hat hentry hway htarget hrest ih =>
    rw [List.append_assoc] at ih
    exact .link hat hentry hway htarget ih

/-- A segment that names nothing can be left out at the end. -/
theorem Leads.of_append_idle (h : Leads ways links at_ (names ++ [name]) l)
    (hname : isIdle name = true) : Leads ways links at_ names l := by
  generalize hall : names ++ [name] = all at h
  -- on the segments that are walked: the one at the end is idle, so it leads nowhere
  induction h generalizing names with
  | here hat => simp at hall
  | idle hat hidle hrest ih =>
    cases names with
    | nil =>
      obtain ⟨-, rfl⟩ := List.cons.inj hall
      exact hrest
    | cons other names =>
      obtain ⟨rfl, hnames⟩ := List.cons.inj hall
      exact .idle hat hidle (ih hnames)
  | up hat hrest ih =>
    cases names with
    | nil =>
      obtain ⟨rfl, -⟩ := List.cons.inj hall
      exact absurd hname (by decide)
    | cons other names =>
      obtain ⟨rfl, hnames⟩ := List.cons.inj hall
      exact .up hat (ih hnames)
  | down hat hentry hway hrest ih =>
    cases names with
    | nil =>
      obtain ⟨rfl, -⟩ := List.cons.inj hall
      simp [hentry.not_idle] at hname
    | cons other names =>
      obtain ⟨rfl, hnames⟩ := List.cons.inj hall
      exact .down hat hentry hway (ih hnames)
  | link hat hentry hway htarget hrest ih =>
    cases names with
    | nil =>
      obtain ⟨rfl, -⟩ := List.cons.inj hall
      simp [hentry.not_idle] at hname
    | cons other names =>
      obtain ⟨rfl, rfl⟩ := List.cons.inj hall
      exact .link hat hentry hway htarget (ih (List.append_assoc _ _ _))

/-- A walk goes on from the folder that it leads to, over no more links. -/
theorem Leads.append (h : Leads ways links at_ names home)
    (hrest : ∀ links, Leads ways links home rest l) : Leads ways links at_ (names ++ rest) l := by
  induction h with
  | here hat => exact hrest _
  | idle hat hidle _ ih => exact .idle hat hidle (ih hrest)
  | up hat _ ih => exact .up hat (ih hrest)
  | down hat hentry hway _ ih => exact .down hat hentry hway (ih hrest)
  | link hat hentry hway htarget _ ih =>
    have hlinked := ih hrest
    rw [List.append_assoc] at hlinked
    exact .link hat hentry hway htarget hlinked

/-- A walk to a folder goes on to a file in it. -/
theorem Leads.walk_file (h : Leads root.wayAt links at_ names home) (hname : IsEntryName name)
    (hfile : root.get? (home ++ [name]) = some (.file text)) :
    walk root links at_ (names ++ [name]) = .ok (home ++ [name]) := by
  induction h with
  | here hat => rw [List.nil_append, walk_cons_name hat hname, hfile, walk_nil]
  | idle hat hidle hrest ih => rw [List.cons_append, walk_cons_idle hat hidle, ih hfile]
  | up hat hrest ih => rw [List.cons_append, walk_cons_up hat, ih hfile]
  | down hat hentry hway hrest ih =>
    obtain ⟨entries, hentries⟩ := Entry.wayAt_eq_folder_iff.mp hway
    rw [List.cons_append, walk_cons_name hat hentry, hentries, ih hfile]
  | link hat hentry hway htarget hrest ih =>
    rw [List.cons_append, walk_cons_name hat hentry, Entry.wayAt_eq_link_iff.mp hway]
    rw [List.append_assoc] at ih
    exact walkLink_eq_ok_iff.mpr ⟨_, rfl, htarget, ih hfile⟩

/-! ## Ways to files -/

/-- Where the way to a file goes on from a link. -/
def targetLink (t : Tree) (links : Nat) (home : Location) (target : Path) :
    Except Cause Location :=
  match links with
  | 0 => .error .tooManyLinks
  | links + 1 =>
    if target.isEmpty then .error .notFound
    else t.target links (startOf home target) (segments target)

section
variable {t : Tree}

/-- A link to the target is followed while any are left. -/
theorem targetLink_eq_ok_iff :
    targetLink t links home target = .ok l ↔
      ∃ fewer, links = fewer + 1 ∧ target.isEmpty = false ∧
        t.target fewer (startOf home target) (segments target) = .ok l := by
  cases links with
  | zero => simp [targetLink]
  | succ fewer => cases htarget : target.isEmpty <;> simp [targetLink, htarget]

/-- What the last segment is to a way to a file. -/
theorem exists_home_of_target (h : t.target links at_ names = .ok l) :
    ∃ before name home, Tree.last names = .name before name false ∧
      Leads t.root.wayAt links at_ before home ∧ ¬ longestName < name.utf8ByteSize := by
  rw [Tree.target.eq_def] at h
  cases hlast : Tree.last names with
  | folder =>
    simp only [hlast, bind_eq_ok_iff] at h
    obtain ⟨_, _, h⟩ := h
    contradiction
  | name before name slash =>
    simp only [hlast, bind_eq_ok_iff] at h
    obtain ⟨home, hhome, h⟩ := h
    cases slash with
    | true => contradiction
    | false =>
      refine ⟨before, name, home, rfl, folderAt_eq_ok_iff.mp hhome, fun hlong => ?_⟩
      rw [if_pos hlong] at h
      contradiction

/-- What stands in the last folder decides about the target. -/
theorem target_eq (hlast : Tree.last names = .name before name false)
    (hhome : Leads t.root.wayAt links at_ before home)
    (hshort : ¬ longestName < name.utf8ByteSize) :
    t.target links at_ names =
      match t.root.wayAt (home ++ [name]) with
      | some .folder => .error .isFolder
      | some (.link target) => targetLink t links home target
      | none => .ok (home ++ [name]) := by
  rw [Tree.target.eq_def, Entry.wayAt]
  simp only [hlast, folderAt_eq_ok_iff.mpr hhome, hshort, bind, Except.bind, Bool.false_eq_true,
    if_false]
  rcases t.root.get? (home ++ [name]) with _ | ⟨_ | _ | _⟩ <;> cases links <;> rfl

theorem lands_of_target (h : t.target links at_ names = .ok l) :
    Lands t.root.wayAt links at_ names l := by
  induction links using Nat.strongRecOn generalizing at_ names with
  | ind links ih =>
    obtain ⟨before, name, home, hlast, hhome, hshort⟩ := exists_home_of_target h
    rw [target_eq hlast hhome hshort] at h
    cases hway : t.root.wayAt (home ++ [name]) with
    | none =>
      obtain rfl : home ++ [name] = l := by simpa [hway] using h
      exact .file hlast hhome hshort hway
    | some way =>
      simp only [hway] at h
      cases way with
      | folder => contradiction
      | link target =>
        obtain ⟨fewer, rfl, htarget, hrest⟩ := targetLink_eq_ok_iff.mp h
        exact .link hlast hhome hshort hway htarget (ih fewer (Nat.lt_succ_self fewer) hrest)

theorem target_of_lands (h : Lands t.root.wayAt links at_ names l) :
    t.target links at_ names = .ok l := by
  induction h with
  | file hlast hhome hshort hway =>
    rw [target_eq hlast hhome hshort, hway]
  | link hlast hhome hshort hway htarget hrest ih =>
    rw [target_eq hlast hhome hshort, hway]
    exact targetLink_eq_ok_iff.mpr ⟨_, rfl, htarget, ih⟩

/-- A path lands exactly where its target is. -/
theorem lands_iff : Lands t.root.wayAt links at_ names l ↔ t.target links at_ names = .ok l :=
  ⟨target_of_lands, lands_of_target⟩

end

/-- A file is in a folder and takes the place of nothing else than a file. -/
theorem Lands.exists_home (h : Lands ways links at_ names l) :
    ∃ home name, l = home ++ [name] ∧ ways home = some .folder ∧ ways l = none := by
  induction h with
  | file hlast hhome hshort hway => exact ⟨_, _, rfl, hhome.wayAt_eq, hway⟩
  | link _ _ _ _ _ _ ih => exact ih

end CmdletForge.Files
