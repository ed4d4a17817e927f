import CmdletForge.Proofs.Files.Walks
import CmdletForge.Proofs.Lists.Passes

/-!
# CmdletForge.Proofs.Files.Writes

What files are there after texts were written and folders were made.

1. `Tree.placeOf` is where the text for a path goes.  Writing it changes the file there and no way
   (`write_eq_ok_iff`, `effect_of_write`).
2. Texts that are written in turn go where they would have gone in the first tree, and leave its
   files overwritten in their order (`effect_of_writeEach`).
3. Folders that are made change no file, also when not all of them can be made.
-/

namespace CmdletForge.Files

open CmdletForge.Path (segments)

/-- Two trees with the same folders and links, and one place where relative paths start. -/
structure SameWays (a b : Tree) : Prop where
  here_eq : a.here = b.here
  wayAt_eq : a.root.wayAt = b.root.wayAt

namespace SameWays

theorem refl (t : Tree) : SameWays t t := ⟨rfl, rfl⟩

theorem symm (h : SameWays a b) : SameWays b a := ⟨h.here_eq.symm, h.wayAt_eq.symm⟩

theorem trans (hab : SameWays a b) (hbc : SameWays b c) : SameWays a c :=
  ⟨hab.here_eq.trans hbc.here_eq, hab.wayAt_eq.trans hbc.wayAt_eq⟩

end SameWays

namespace Tree

/-! ## Where a text goes -/

/-- Where the text goes that is written to a path. -/
def placeOf (t : Tree) (p : Path) : Except Cause Location := do
  checkPath p
  t.target mostLinks (startOf t.here p) (segments p)

variable {t t' : Tree} {p : Path} {text : String} {l : Location}

/-- The place of a path is where it lands. -/
theorem placeOf_eq_ok_iff :
    t.placeOf p = .ok l ↔
      checkPath p = .ok () ∧
        Lands t.root.wayAt mostLinks (startOf t.here p) (segments p) l := by
  rw [placeOf, bind_eq_ok_iff, lands_iff]
  constructor
  · rintro ⟨⟨⟩, hcheck, htarget⟩
    exact ⟨hcheck, htarget⟩
  · rintro ⟨hcheck, htarget⟩
    exact ⟨(), hcheck, htarget⟩

/-- The place of a path is a matter of the folders and links. -/
theorem placeOf_congr (h : SameWays t t') : t.placeOf p = .ok l ↔ t'.placeOf p = .ok l := by
  rw [placeOf_eq_ok_iff, placeOf_eq_ok_iff, h.here_eq, h.wayAt_eq]

/-! ## One text -/

/-- What is put into a tree stands there, when the system has nothing against it. -/
theorem putAt_eq_ok_iff {new : Entry} :
    t.putAt l new = .ok t' ↔
      t.refuses t.root l new = none ∧ { t with root := Entry.put new t.root l } = t' := by
  unfold putAt
  cases t.refuses t.root l new <;> simp

/-- A text is put at the place of its path. -/
theorem write_eq (t : Tree) (p : Path) (text : String) :
    t.write p text = t.placeOf p >>= fun l => t.putAt l (.file (some text)) := by
  unfold write placeOf
  cases checkPath p <;> rfl

theorem write_eq_ok_iff :
    t.write p text = .ok t' ↔
      ∃ l, t.placeOf p = .ok l ∧ t.putAt l (.file (some text)) = .ok t' := by
  rw [write_eq, bind_eq_ok_iff]

/-- **One text.**  It goes to the place of its path, and nothing else is changed. -/
theorem effect_of_write (h : t.write p text = .ok t') :
    ∃ l, t.placeOf p = .ok l ∧
      t'.root.fileAt = Function.update t.root.fileAt l (some (some text)) ∧ SameWays t t' := by
  obtain ⟨l, hplace, hput⟩ := write_eq_ok_iff.mp h
  obtain ⟨home, name, rfl, hhome, hold⟩ := (placeOf_eq_ok_iff.mp hplace).2.exists_home
  obtain ⟨-, rfl⟩ := putAt_eq_ok_iff.mp hput
  exact ⟨home ++ [name], hplace, Entry.fileAt_put_file hhome hold (some text),
    rfl, (Entry.wayAt_put_file hhome hold (some text)).symm⟩

/-! ## Texts in turn -/

/-- Writes texts to paths in turn, until one cannot be written. -/
def writeEach (t : Tree) (writes : List (Path × String)) : Except Cause Tree :=
  writes.foldlM (fun t (p, text) => t.write p text) t

theorem writeEach_nil_eq_ok_iff : t.writeEach [] = .ok t' ↔ t = t' := by
  simp [writeEach, pure, Except.pure]

theorem writeEach_cons_eq_ok_iff {writes : List (Path × String)} :
    t.writeEach ((p, text) :: writes) = .ok t' ↔
      ∃ next, t.write p text = .ok next ∧ next.writeEach writes = .ok t' := by
  rw [writeEach, List.foldlM_cons, bind_eq_ok_iff]
  rfl

/-- Where texts go that are written to paths. -/
def Places (t : Tree) (writes : List (Path × String)) (puts : List (Location × String)) : Prop :=
  List.Forall₂ (fun w q => t.placeOf w.1 = .ok q.1 ∧ w.2 = q.2) writes puts

/-- Where the ways are the same, the places are. -/
theorem Places.congr (h : SameWays t t') (hplaces : t.Places writes puts) : t'.Places writes puts :=
  List.Forall₂.imp (fun _ _ hw => ⟨(placeOf_congr h).mp hw.1, hw.2⟩) hplaces

theorem Places.exists_of_mem (h : t.Places writes puts) {q : Location × String} (hq : q ∈ puts) :
    ∃ w ∈ writes, t.placeOf w.1 = .ok q.1 := by
  obtain ⟨w, hw, hplace, -⟩ := exists_left_of_mem h hq
  exact ⟨w, hw, hplace⟩

theorem Places.exists_place (h : t.Places writes puts) {w : Path × String} (hw : w ∈ writes) :
    ∃ l, t.placeOf w.1 = .ok l := by
  obtain ⟨q, -, hplace, -⟩ := exists_right_of_mem h hw
  exact ⟨q.1, hplace⟩

/-- Of all texts that go to one place the last one stands there. -/
theorem Places.overwritten_eq {before after : List (Path × String)}
    {files : Location → Option (Option String)}
    (h : t.Places (before ++ (p, text) :: after) puts) (hp : t.placeOf p = .ok l)
    (hafter : ∀ w ∈ after, t.placeOf w.1 ≠ .ok l) :
    overwritten files puts l = some (some text) := by
  induction before generalizing files puts with
  | nil =>
    obtain ⟨⟨l', text'⟩, rest, ⟨hplace, htext⟩, hrest, rfl⟩ := List.forall₂_cons_left_iff.mp h
    obtain rfl : l' = l := Except.ok.inj (hplace.symm.trans hp)
    obtain rfl : text = text' := htext
    have hleft : ∀ q ∈ rest, q.1 ≠ l' := by
      rintro q hq rfl
      obtain ⟨w, hw, hplace⟩ := Places.exists_of_mem hrest hq
      exact hafter w hw hplace
    rw [overwritten_cons, overwritten_of_not_mem hleft, Function.update_self]
  | cons w before ih =>
    obtain ⟨⟨l', text'⟩, rest, -, hrest, rfl⟩ := List.forall₂_cons_left_iff.mp h
    rw [overwritten_cons]
    exact ih hrest

/-- **Texts in turn.**  All of them go where they would go in the first tree. -/
theorem effect_of_writeEach (h : t.writeEach writes = .ok t') :
    ∃ puts, t.Places writes puts ∧ t'.root.fileAt = overwritten t.root.fileAt puts ∧
      SameWays t t' := by
  induction writes generalizing t with
  | nil =>
    obtain rfl := writeEach_nil_eq_ok_iff.mp h
    exact ⟨[], .nil, rfl, .refl t⟩
  | cons w writes ih =>
    obtain ⟨p, text⟩ := w
    obtain ⟨next, hnext, hrest⟩ := writeEach_cons_eq_ok_iff.mp h
    obtain ⟨l, hplace, hfiles, hways⟩ := effect_of_write hnext
    obtain ⟨puts, hplaces, hfiles', hways'⟩ := ih hrest
    have hputs : t.Places ((p, text) :: writes) ((l, text) :: puts) :=
      .cons ⟨hplace, rfl⟩ (hplaces.congr hways.symm)
    have hall : t'.root.fileAt = overwritten t.root.fileAt ((l, text) :: puts) := by
      rw [hfiles', hfiles, overwritten_cons]
    exact ⟨(l, text) :: puts, hputs, hall, hways.trans hways'⟩

/-! ## Folders -/

/-- A folder that is made is put where nothing was. -/
theorem makeFolder_eq_ok (h : t.makeFolder p = .ok t') :
    ∃ home name, t.root.wayAt home = some .folder ∧ t.root.get? (home ++ [name]) = none ∧
      t' = { t with root := Entry.put (.folder []) t.root (home ++ [name]) } := by
  rw [makeFolder, bind_eq_ok_iff] at h
  obtain ⟨_, -, h⟩ := h
  cases hlast : last (segments p) with
  | folder =>
    simp only [hlast, bind_eq_ok_iff] at h
    obtain ⟨_, -, h⟩ := h
    contradiction
  | name before name slash =>
    simp only [hlast, bind_eq_ok_iff] at h
    obtain ⟨home, hhome, h⟩ := h
    split at h
    · contradiction
    · cases hentry : t.root.get? (home ++ [name]) with
      | none =>
        simp only [hentry] at h
        obtain ⟨-, rfl⟩ := putAt_eq_ok_iff.mp h
        exact ⟨home, name, (folderAt_eq_ok_iff.mp hhome).wayAt_eq, hentry, rfl⟩
      | some e =>
        simp only [hentry] at h
        contradiction

/-- A new folder changes no file. -/
theorem fileAt_of_makeFolder (h : t.makeFolder p = .ok t') : t'.root.fileAt = t.root.fileAt := by
  obtain ⟨home, name, hhome, hold, rfl⟩ := makeFolder_eq_ok h
  exact Entry.fileAt_put_folder hhome hold

/-- The induction is on the steps: the folder around is made first, by one step less. -/
theorem fileAt_makeFoldersFrom (t : Tree) (p : Path) (steps : Nat) :
    (t.makeFoldersFrom p steps).2.root.fileAt = t.root.fileAt := by
  induction steps generalizing p with
  | zero => rfl
  | succ steps ih =>
    rw [makeFoldersFrom]
    split
    · rfl
    · split
      · next t' hmade => exact fileAt_of_makeFolder hmade
      · split
        · rfl
        · next parent hparent =>
          have haround := ih parent
          split
          · next cause t' hfailed => rwa [hfailed] at haround
          · next t' hmade =>
            rw [hmade] at haround
            split
            · next t'' hlast => exact (fileAt_of_makeFolder hlast).trans haround
            · split <;> exact haround
      · split <;> rfl

/-- **Folders.**  Making them changes no file, whether all of them can be made or not. -/
theorem fileAt_makeFolders (t : Tree) (p : Path) :
    (t.makeFolders p).2.root.fileAt = t.root.fileAt :=
  fileAt_makeFoldersFrom t p _

end Tree

end CmdletForge.Files
