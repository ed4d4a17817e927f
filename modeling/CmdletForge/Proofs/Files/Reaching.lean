import CmdletForge.Proofs.Files.Listings

/-!
# CmdletForge.Proofs.Files.Reaching

Folders that a path reaches, and the files below them.

1. A relative path leads on from a folder that is reached to the one that its names lead to
   (`Reaches.join`).
2. Every file below a folder that is reached is read under its path (`Reaches.read_pathBelow`).
-/

namespace CmdletForge.Files

open CmdletForge.Path (segments isAbsolute isIdle)

/-! ## Ways through folders -/

/-- Whatever stands below a location stands in a folder there. -/
theorem exists_folder_of_get? {root : Entry} (h : root.get? (a ++ name :: b) = some e) :
    ∃ entries, root.get? a = some (.folder entries) := by
  rw [Entry.get?_append, Option.bind_eq_some_iff] at h
  obtain ⟨above, habove, h⟩ := h
  cases above with
  | folder entries => exact ⟨entries, habove⟩
  | _ => simp [Entry.child?] at h

/-- A folder on the way to another one. -/
theorem wayAt_of_get?_append {root : Entry} (h : root.get? (a ++ b) = some (.folder entries)) :
    root.wayAt a = some .folder := by
  rw [Entry.wayAt_eq_folder_iff]
  cases b with
  | nil => exact ⟨entries, by rwa [List.append_nil] at h⟩
  | cons name b => exact exists_folder_of_get? h

/-- Segments that are names or empty lead through the folders of the names, over no links. -/
theorem leads_of_get? {root : Entry} {at_ : Location} {ss : List String}
    (hss : ∀ s ∈ ss, s.isEmpty = false → IsEntryName s)
    (h : root.get? (at_ ++ ss.filter fun s => !s.isEmpty) = some (.folder entries)) (links : Nat) :
    Leads root.wayAt links at_ ss (at_ ++ ss.filter fun s => !s.isEmpty) := by
  induction ss generalizing at_ with
  | nil =>
    rw [List.filter_nil, List.append_nil] at h ⊢
    exact .here (Entry.wayAt_eq_folder_iff.mpr ⟨entries, h⟩)
  | cons s ss ih =>
    rw [List.forall_mem_cons] at hss
    have hat := wayAt_of_get?_append h
    cases hempty : s.isEmpty with
    | true =>
      rw [List.filter_cons_of_neg (by simp [hempty])] at h ⊢
      exact .idle hat (by simp [isIdle, hempty]) (ih hss.2 h)
    | false =>
      rw [List.filter_cons_of_pos (by simp [hempty]), List.append_cons] at h ⊢
      exact .down hat (hss.1 hempty) (wayAt_of_get?_append h) (ih hss.2 h)

/-! ## Paths that can be asked for -/

namespace Tree

variable {t : Tree} {folder part : Path} {home l : Location}

/-- A path is refused when it is empty or holds a null character. -/
theorem checkPath_eq_ok_iff {p : Path} :
    checkPath p = .ok () ↔ Char.ofNat 0 ∉ p.toList ∧ p ≠ "" := by
  unfold checkPath
  by_cases hzero : Char.ofNat 0 ∈ p.toList
  · simp [hzero]
  · by_cases hempty : p = ""
    · simp [hempty]
    · simp [hzero, hempty]

/-- A character that is no slash is in one of the segments. -/
theorem exists_mem_segmentsFrom {acc cs : List Char} {c : Char} (hc : c ∈ acc ++ cs)
    (hslash : c ≠ '/') : ∃ s ∈ Path.segmentsFrom acc cs, c ∈ s.toList := by
  fun_induction Path.segmentsFrom acc cs with
  | case1 acc => simpa using hc
  | case2 acc cs ih =>
    rw [List.mem_append, List.mem_cons] at hc
    rcases hc with hacc | rfl | hcs
    · exact ⟨_, List.mem_cons_self, by simpa using hacc⟩
    · contradiction
    · obtain ⟨s, hs, hmem⟩ := ih hcs
      exact ⟨s, List.mem_cons_of_mem _ hs, hmem⟩
  | case3 acc d cs hd ih =>
    refine ih ?_
    simp only [List.mem_append, List.mem_cons] at hc ⊢
    tauto

/-- What is joined to a path that can be asked for by proper names can be asked for. -/
theorem checkPath_join (h : checkPath folder = .ok ()) (hpart : isAbsolute part = false)
    (hnames : ∀ name ∈ namesOf part, IsProperName name) :
    checkPath (Path.join folder part) = .ok () := by
  obtain ⟨hzero, hne⟩ := checkPath_eq_ok_iff.mp h
  have hpartZero : Char.ofNat 0 ∉ part.toList := by
    intro hmem
    obtain ⟨s, hs, hmem⟩ := exists_mem_segmentsFrom (List.mem_append_right [] hmem) (by decide)
    have hempty : s.isEmpty = false := by
      cases hs : s.isEmpty with
      | false => rfl
      | true =>
        rw [String.isEmpty_iff.mp hs] at hmem
        contradiction
    exact (hnames s (List.mem_filter.mpr ⟨hs, by simp [hempty]⟩)).no_zero hmem
  rw [checkPath_eq_ok_iff]
  rcases join_cases hpart folder with ⟨hempty, -⟩ | ⟨-, ⟨-, hjoin⟩ | hjoin⟩
  · contradiction
  · rw [hjoin]
    simp [hzero, hpartZero, hne]
  · rw [hjoin]
    simp [hzero, hpartZero, hne]

/-! ## Reaching -/

/-- A path that can be asked for, and leads to a folder. -/
structure Reaches (t : Tree) (p : Path) (home : Location) : Prop where
  check : checkPath p = .ok ()
  leads : t.LeadsTo p home

theorem exists_reaches (h : t.entry? folder = some e) (he : e.isFolder = true) :
    ∃ home, t.Reaches folder home ∧ t.root.get? home = some e := by
  unfold entry? at h
  split at h
  next home hlocate =>
    rw [locate, bind_eq_ok_iff] at hlocate
    obtain ⟨⟨⟩, hcheck, hwalk⟩ := hlocate
    cases e with
    | folder entries =>
      have hway := Entry.wayAt_eq_folder_iff.mpr ⟨entries, h⟩
      exact ⟨home, ⟨hcheck, leads_of_walk hwalk hway⟩, h⟩
    | _ => contradiction
  next => contradiction

/-- What a path reaches stands at its location. -/
theorem Reaches.entry?_eq (h : t.Reaches folder home) : t.entry? folder = t.root.get? home := by
  have hlocate : t.locate folder = .ok home := by
    rw [locate, h.check]
    exact walk_of_leads h.leads
  unfold entry?
  rw [hlocate]

/-- **Through folders**: a relative path leads on to the folder that its names lead to. -/
theorem Reaches.join (h : t.Reaches folder home) (hpart : isAbsolute part = false)
    (hnames : ∀ name ∈ namesOf part, IsProperName name)
    (hfolder : t.root.get? (home ++ namesOf part) = some (.folder entries)) :
    t.Reaches (Path.join folder part) (home ++ namesOf part) := by
  refine ⟨checkPath_join h.check hpart hnames, ?_⟩
  obtain ⟨before, hsegments, hleads⟩ := h.leads.exists_leads_join hpart
  rw [LeadsTo, hsegments]
  refine hleads.append fun links => leads_of_get? ?_ hfolder links
  intro s hs hempty
  exact (hnames s (List.mem_filter.mpr ⟨hs, by simp [hempty]⟩)).isEntryName

/-- From a folder, the name of a folder in it reaches that. -/
theorem Reaches.join_name (h : t.Reaches folder home) (hname : IsProperName name)
    (hfolder : t.root.get? (home ++ [name]) = some (.folder entries)) :
    t.Reaches (Path.join folder name) (home ++ [name]) := by
  have hnames := namesOf_of_isFileName hname.toIsFileName
  rw [← hnames] at hfolder ⊢
  refine h.join hname.isAbsolute_eq ?_ hfolder
  rw [hnames, List.forall_mem_singleton]
  exact hname

/-- A file in a folder is read under its name. -/
theorem Reaches.read_join (h : t.Reaches folder home) (hname : IsProperName name)
    (hfile : t.root.get? (home ++ [name]) = some (.file content)) :
    t.read (Path.join folder name) = content.elim (.error .notText) .ok := by
  obtain ⟨before, hsegments, hleads⟩ := h.leads.exists_leads_join hname.isAbsolute_eq
  rw [segments_of_not_mem hname.no_slash] at hsegments
  have hcheck : checkPath (Path.join folder name) = .ok () := by
    refine checkPath_join h.check hname.isAbsolute_eq ?_
    rw [namesOf_of_isFileName hname.toIsFileName, List.forall_mem_singleton]
    exact hname
  have hfound : t.Names (Path.join folder name) home name :=
    ⟨hcheck, hname.isEntryName, before, hsegments, hleads⟩
  rw [Tree.read, hfound.locate_eq hfile]
  simp only [bind, Except.bind, hfile]
  cases content <;> rfl

/-- **A file below a folder** is read under its path. -/
theorem Reaches.read_pathBelow (h : t.Reaches folder home) (hnames : ∀ name ∈ l, IsProperName name)
    (hl : l ≠ []) (hfile : t.root.get? (home ++ l) = some (.file content)) :
    t.read (pathBelow folder l) = content.elim (.error .notText) .ok := by
  induction l generalizing folder home with
  | nil => contradiction
  | cons name rest ih =>
    rw [List.forall_mem_cons] at hnames
    cases rest with
    | nil => exact h.read_join hnames.1 hfile
    | cons next rest =>
      rw [List.append_cons] at hfile
      obtain ⟨entries, hfolder⟩ := exists_folder_of_get? hfile
      exact ih (h.join_name hnames.1 hfolder) hnames.2 (List.cons_ne_nil _ _) hfile

end Tree

end CmdletForge.Files
