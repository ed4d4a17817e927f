import CmdletForge.Proofs.Files.Writes

/-!
# CmdletForge.Proofs.Files.Joins

Files that are written into a folder under a name.

1. The segments of a relative path come last in what it is joined to, and the segments before them
   are those of the folder (`segments_join`).  So a name without a slash is the last one.
2. So the text goes into that folder under that name, unless a link stands there
   (`home_of_placeOf_join`), and is what the path reads afterwards (`Names.read`).
-/

namespace CmdletForge.Files

open CmdletForge.Path (segments segmentsFrom join isAbsolute endsWithSlash isIdle)

/-! ## Segments of joined paths -/

/-- A slash ends a segment. -/
theorem segmentsFrom_append (a b : List Char) (acc : List Char) :
    segmentsFrom acc (a ++ '/' :: b) = segmentsFrom acc a ++ segmentsFrom [] b := by
  induction a generalizing acc with
  | nil => simp [segmentsFrom]
  | cons c a ih =>
    by_cases hc : c = '/'
    · subst hc
      simp [segmentsFrom, ih]
    · simp [segmentsFrom, ih]

theorem segmentsFrom_of_not_mem {cs : List Char} (h : '/' ∉ cs) (acc : List Char) :
    segmentsFrom acc cs = [String.ofList (acc.reverse ++ cs)] := by
  induction cs generalizing acc with
  | nil => simp [segmentsFrom]
  | cons c cs ih =>
    obtain ⟨hc, hcs⟩ : '/' ≠ c ∧ '/' ∉ cs := by simpa using h
    simp [segmentsFrom, Ne.symm hc, ih hcs]

theorem segments_of_not_mem {name : String} (h : '/' ∉ name.toList) : segments name = [name] := by
  simp [segments, segmentsFrom_of_not_mem h]

/-- The segments of a path that is joined by a slash. -/
theorem segments_append_slash (folder name : String) :
    segments (folder ++ "/" ++ name) = segments folder ++ segments name := by
  simp [segments, ← segmentsFrom_append]

/-- What the name of a file can be: a segment that names something below a folder. -/
structure IsFileName (name : String) : Prop where
  no_slash : '/' ∉ name.toList
  not_idle : isIdle name = false
  ne_up : name ≠ ".."

section
variable {folder name : String} {part : Path}

theorem isAbsolute_of_not_mem (h : '/' ∉ name.toList) : isAbsolute name = false := by
  unfold isAbsolute
  cases hname : name.toList with
  | nil => rfl
  | cons c cs =>
    have hc : c ≠ '/' := by
      rintro rfl
      simp [hname] at h
    simpa using hc

/-- A relative path stands alone, behind a slash that is there, or behind one that is added. -/
theorem join_cases (h : isAbsolute part = false) (folder : Path) :
    folder = "" ∧ join folder part = part ∨
      folder ≠ "" ∧ (endsWithSlash folder = true ∧ join folder part = folder ++ part ∨
        join folder part = folder ++ "/" ++ part) := by
  by_cases hempty : folder = ""
  · exact .inl ⟨hempty, by simp [join, h, hempty]⟩
  · cases hslash : endsWithSlash folder with
    | true => exact .inr ⟨hempty, .inl ⟨rfl, by simp [join, h, hslash]⟩⟩
    | false => exact .inr ⟨hempty, .inr (by simp [join, h, hempty, hslash])⟩

/-- Its segments are last, and a slash at the end of the folder does not count. -/
theorem segments_join (h : isAbsolute part = false) (folder : Path) :
    ∃ before, segments (join folder part) = before ++ segments part ∧
      (segments folder = before ∨ segments folder = before ++ [""]) := by
  rcases join_cases h folder with ⟨rfl, hjoin⟩ | ⟨-, ⟨hslash, hjoin⟩ | hjoin⟩
  · rw [hjoin]
    exact ⟨[], rfl, .inr (by decide)⟩
  · obtain ⟨cs, hcs⟩ : ∃ cs, folder.toList = cs ++ ['/'] := by
      simpa [endsWithSlash, List.getLast?_eq_some_iff] using hslash
    refine ⟨segmentsFrom [] cs, ?_, .inr ?_⟩
    · rw [hjoin, segments, String.toList_append, hcs, List.append_assoc]
      exact segmentsFrom_append cs part.toList []
    · rw [segments, hcs]
      exact segmentsFrom_append cs [] []
  · exact ⟨segments folder, by rw [hjoin, segments_append_slash], .inl rfl⟩

theorem isAbsolute_append (h : folder ≠ "") (rest : String) :
    isAbsolute (folder ++ rest) = isAbsolute folder := by
  unfold isAbsolute
  cases hfolder : folder.toList with
  | nil => exact absurd (String.toList_eq_nil_iff.mp hfolder) h
  | cons c cs => simp [hfolder]

theorem isAbsolute_join (h : isAbsolute part = false) :
    isAbsolute (join folder part) = isAbsolute folder := by
  rcases join_cases h folder with ⟨rfl, hjoin⟩ | ⟨hne, ⟨-, hjoin⟩ | hjoin⟩
  · have hnone : isAbsolute "" = false := by decide
    rw [hjoin, h, hnone]
  · rw [hjoin, isAbsolute_append hne]
  · rw [hjoin, String.append_assoc, isAbsolute_append hne]

/-- A relative part begins where the folder does. -/
theorem startOf_join (h : isAbsolute part = false) (l : Location) :
    startOf l (join folder part) = startOf l folder := by
  rw [startOf, startOf, isAbsolute_join h]

theorem last_append_singleton (h : IsFileName name) (before : List String) :
    Tree.last (before ++ [name]) = .name before name false := by
  obtain ⟨hempty, hpoint⟩ : name.isEmpty = false ∧ name ≠ "." := by
    simpa [isIdle] using h.not_idle
  have hkept : (before ++ [name]).reverse.dropWhile String.isEmpty = name :: before.reverse := by
    simp [hempty]
  simp only [Tree.last, hkept]
  simp [hpoint, h.ne_up]

/-- A text for a name goes there, or on from the link that stands there. -/
theorem Lands.exists_home_of_append {ways : Location → Option Way} {links : Nat} {at_ l : Location}
    {before : List String} (h : Lands ways links at_ (before ++ [name]) l)
    (hname : IsFileName name) :
    ∃ home, Leads ways links at_ before home ∧ IsEntryName name ∧
      (l = home ++ [name] ∨ ∃ target, ways (home ++ [name]) = some (.link target)) := by
  cases h with
  | file hlast hhome hshort hway =>
    rw [last_append_singleton hname] at hlast
    obtain ⟨rfl, rfl⟩ : before = _ ∧ name = _ := by simpa using hlast
    exact ⟨_, hhome, ⟨hname.not_idle, hname.ne_up, hshort⟩, .inl rfl⟩
  | link hlast hhome hshort hway =>
    rw [last_append_singleton hname] at hlast
    obtain ⟨rfl, rfl⟩ : before = _ ∧ name = _ := by simpa using hlast
    exact ⟨_, hhome, ⟨hname.not_idle, hname.ne_up, hshort⟩, .inr ⟨_, hway⟩⟩

end

/-! ## Files under their names -/

namespace Tree

variable {t t' : Tree} {p folder part : Path} {home l : Location} {name text : String}

/-- A path leads to a folder. -/
def LeadsTo (t : Tree) (p : Path) (home : Location) : Prop :=
  Leads t.root.wayAt mostLinks (startOf t.here p) (segments p) home

/-- The last segment of a path is a name in a folder that the others lead to. -/
structure Names (t : Tree) (p : Path) (home : Location) (name : String) : Prop where
  check : checkPath p = .ok ()
  entryName : IsEntryName name
  leads : ∃ before, segments p = before ++ [name] ∧
    Leads t.root.wayAt mostLinks (startOf t.here p) before home

/-- Where the ways are the same, a path names the same. -/
theorem Names.congr (h : t.Names p home name) (hways : SameWays t t') : t'.Names p home name := by
  obtain ⟨before, hbefore, hleads⟩ := h.leads
  rw [hways.here_eq, hways.wayAt_eq] at hleads
  exact ⟨h.check, h.entryName, before, hbefore, hleads⟩

/-- A file is found under its name. -/
theorem Names.locate_eq (h : t.Names p home name)
    (hfile : t.root.get? (home ++ [name]) = some (.file content)) :
    t.locate p = .ok (home ++ [name]) := by
  obtain ⟨before, hbefore, hleads⟩ := h.leads
  rw [locate, h.check, hbefore]
  exact hleads.walk_file h.entryName hfile

/-- A file is read under its name. -/
theorem Names.read (h : t.Names p home name)
    (hfile : t.root.fileAt (home ++ [name]) = some (some text)) : t.read p = .ok text := by
  have hentry := Entry.fileAt_eq_some_iff.mp hfile
  rw [Tree.read, h.locate_eq hentry]
  simp [bind, Except.bind, hentry, pure, Except.pure]

/-- A relative path leads on from a folder. -/
theorem LeadsTo.exists_leads_join (h : t.LeadsTo folder home) (hpart : isAbsolute part = false) :
    ∃ before, segments (join folder part) = before ++ segments part ∧
      Leads t.root.wayAt mostLinks (startOf t.here (join folder part)) before home := by
  obtain ⟨before, hsegments, hfolder⟩ := segments_join hpart folder
  refine ⟨before, hsegments, ?_⟩
  rw [startOf_join hpart]
  obtain hfolder | hfolder := hfolder <;> rw [LeadsTo, hfolder] at h
  · exact h
  · exact h.of_append_idle (by decide)

/-- **A text for a folder.**  It goes into the folder under its name, unless a link stands
there. -/
theorem home_of_placeOf_join (hname : IsFileName name) (h : t.placeOf (join folder name) = .ok l) :
    ∃ home, t.LeadsTo folder home ∧ t.Names (join folder name) home name ∧
      (l = home ++ [name] ∨ ∃ target, t.root.wayAt (home ++ [name]) = some (.link target)) := by
  obtain ⟨hcheck, hlands⟩ := placeOf_eq_ok_iff.mp h
  have hrelative := isAbsolute_of_not_mem hname.no_slash
  obtain ⟨before, hsegments, hfolder⟩ := segments_join hrelative folder
  rw [segments_of_not_mem hname.no_slash] at hsegments
  rw [hsegments] at hlands
  obtain ⟨home, hhome, hentry, hl⟩ := hlands.exists_home_of_append hname
  have hleads : t.LeadsTo folder home := by
    rw [startOf_join hrelative] at hhome
    obtain hfolder | hfolder := hfolder <;> rw [LeadsTo, hfolder]
    · exact hhome
    · exact hhome.append_idle (by decide)
  exact ⟨home, hleads, ⟨hcheck, hentry, before, hsegments, hhome⟩, hl⟩

end Tree

end CmdletForge.Files
