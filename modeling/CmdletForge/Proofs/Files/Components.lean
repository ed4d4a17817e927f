import CmdletForge.Proofs.Files.Joins

/-!
# CmdletForge.Proofs.Files.Components

The components of joined paths.

1. What is joined to a folder by a relative path has the components of the folder and then the
   names in the path (`components_join`).  So has the path of a location below a folder
   (`components_pathBelow`).
2. A relative path that is spelled with one slash between its names is joined as its names are
   (`join_eq_pathBelow`).
-/

namespace CmdletForge

namespace Path

/-- Whether a path is that of a folder or of something below it. -/
def isUnder (folder p : Path) : Bool :=
  isAbsolute p == isAbsolute folder && (components folder).isPrefixOf (components p)

/-- Two spellings of one path. -/
structure Same (p q : Path) : Prop where
  isAbsolute_eq : isAbsolute p = isAbsolute q
  components_eq : components p = components q

end Path

namespace Files

open CmdletForge.Path (segments segmentsFrom components join isAbsolute endsWithSlash isIdle)

/-! ## Components of segments -/

/-- The components that segments have. -/
def componentsOf : List String → List String
  | [] => []
  | first :: rest => (if first.isEmpty then [] else [first]) ++ rest.filter fun s => !isIdle s

theorem components_eq (p : Path) : components p = componentsOf (segments p) := by
  unfold Path.components
  cases segments p <;> rfl

/-- Idle parts are left out behind a first part. -/
theorem componentsOf_append {before : List String} (h : before ≠ []) (rest : List String) :
    componentsOf (before ++ rest) = componentsOf before ++ rest.filter fun s => !isIdle s := by
  cases before with
  | nil => contradiction
  | cons first before =>
    rw [List.cons_append, componentsOf, componentsOf, List.filter_append, List.append_assoc]

/-- Without a point among the segments, only the empty ones name nothing. -/
theorem filter_isIdle {ss : List String} (h : "." ∉ ss) :
    ss.filter (fun s => !isIdle s) = ss.filter fun s => !s.isEmpty := by
  refine List.filter_congr fun s hs => ?_
  have hs' : s ≠ "." := fun heq => h (heq ▸ hs)
  simp [isIdle, hs']

theorem componentsOf_eq_filter {ss : List String} (h : "." ∉ ss) :
    componentsOf ss = ss.filter fun s => !s.isEmpty := by
  cases ss with
  | nil => rfl
  | cons first rest =>
    rw [List.mem_cons, not_or] at h
    rw [componentsOf, filter_isIdle h.2, List.filter_cons]
    cases first.isEmpty <;> rfl

/-! ## Names in a relative path -/

/-- The names in a relative path. -/
def namesOf (p : Path) : List String := (segments p).filter fun s => !s.isEmpty

theorem IsFileName.isEmpty_eq {name : String} (h : IsFileName name) : name.isEmpty = false := by
  have hidle := h.not_idle
  rw [isIdle, Bool.or_eq_false_iff] at hidle
  exact hidle.1

theorem namesOf_of_isFileName {name : String} (h : IsFileName name) : namesOf name = [name] := by
  rw [namesOf, segments_of_not_mem h.no_slash]
  simp [h.isEmpty_eq]

/-- Names of files are no points. -/
theorem not_mem_segments {part : Path} (h : ∀ name ∈ namesOf part, IsFileName name) :
    "." ∉ segments part := fun hmem =>
  absurd (h "." (List.mem_filter.mpr ⟨hmem, by decide⟩)).not_idle (by decide)

/-- **The components of a joined path** are those of the folder, and then the names. -/
theorem components_join {part : Path} (h : isAbsolute part = false)
    (hnames : ∀ name ∈ namesOf part, IsFileName name) (folder : Path) :
    components (join folder part) = components folder ++ namesOf part := by
  have hpoint := not_mem_segments hnames
  obtain ⟨before, hsegments, hfolder⟩ := segments_join h folder
  rw [components_eq, components_eq, hsegments, namesOf]
  cases before with
  | nil =>
    have hnone : componentsOf (segments folder) = [] := by
      obtain hfolder | hfolder := hfolder <;> rw [hfolder] <;> decide
    rw [hnone, List.nil_append, List.nil_append, componentsOf_eq_filter hpoint]
  | cons first before =>
    have hsame : componentsOf (segments folder) = componentsOf (first :: before) := by
      obtain hfolder | hfolder := hfolder
      · rw [hfolder]
      · rw [hfolder, componentsOf_append (List.cons_ne_nil _ _), List.append_right_eq_self]
        decide
    rw [componentsOf_append (List.cons_ne_nil _ _), filter_isIdle hpoint, hsame]

/-! ## Locations below a folder -/

/-- The path of a location, seen from a folder. -/
def pathBelow (folder : Path) (l : Location) : Path := l.foldl join folder

@[simp] theorem pathBelow_cons (folder : Path) (name : String) (l : Location) :
    pathBelow folder (name :: l) = pathBelow (join folder name) l := rfl

theorem pathBelow_append (folder : Path) (a b : Location) :
    pathBelow folder (a ++ b) = pathBelow (pathBelow folder a) b := List.foldl_append

section
variable {l : Location} (h : ∀ name ∈ l, IsFileName name)
include h

/-- A location adds its names to the components. -/
theorem components_pathBelow (folder : Path) :
    components (pathBelow folder l) = components folder ++ l := by
  induction l generalizing folder with
  | nil => exact (List.append_nil _).symm
  | cons name l ih =>
    rw [List.forall_mem_cons] at h
    have hname := namesOf_of_isFileName h.1
    rw [pathBelow_cons, ih h.2, components_join (isAbsolute_of_not_mem h.1.no_slash), hname,
      List.append_assoc]
    · rfl
    · rw [hname, List.forall_mem_singleton]
      exact h.1

theorem isAbsolute_pathBelow (folder : Path) :
    isAbsolute (pathBelow folder l) = isAbsolute folder := by
  induction l generalizing folder with
  | nil => rfl
  | cons name l ih =>
    rw [List.forall_mem_cons] at h
    rw [pathBelow_cons, ih h.2, isAbsolute_join (isAbsolute_of_not_mem h.1.no_slash)]

theorem fileName_pathBelow (hl : l.getLast? = some name) (folder : Path) :
    Path.fileName? (pathBelow folder l) = some name := by
  have hname := h name (List.mem_of_getLast? hl)
  have hpoint : name ≠ "." := by
    rintro rfl
    exact absurd hname.not_idle (by decide)
  have hlast : (components folder ++ l).getLast? = some name := by
    rw [List.getLast?_append, hl]
    rfl
  rw [Path.fileName?, components_pathBelow h, hlast]
  simp [hpoint, hname.ne_up]

end

/-- The location lies below the names of a relative path exactly when its path does. -/
theorem isUnder_join_iff {part : Path} {l : Location} (hpart : isAbsolute part = false)
    (hnames : ∀ name ∈ namesOf part, IsFileName name) (hl : ∀ name ∈ l, IsFileName name)
    (folder : Path) :
    Path.isUnder (join folder part) (pathBelow folder l) = (namesOf part).isPrefixOf l := by
  rw [Path.isUnder, isAbsolute_pathBelow hl, isAbsolute_join hpart, components_join hpart hnames,
    components_pathBelow hl, Bool.eq_iff_iff, Bool.and_eq_true, beq_self_eq_true,
    List.isPrefixOf_iff_prefix, List.isPrefixOf_iff_prefix, List.prefix_append_right_inj]
  simp

/-- A location below a joined path, spelled with the names of the path. -/
theorem same_pathBelow {part : Path} {l : Location} (hpart : isAbsolute part = false)
    (hnames : ∀ name ∈ namesOf part, IsFileName name) (hl : ∀ name ∈ l, IsFileName name)
    (folder : Path) :
    Path.Same (pathBelow (join folder part) l) (pathBelow folder (namesOf part ++ l)) := by
  have hall : ∀ name ∈ namesOf part ++ l, IsFileName name := by
    rw [List.forall_mem_append]
    exact ⟨hnames, hl⟩
  refine ⟨?_, ?_⟩
  · rw [isAbsolute_pathBelow hl, isAbsolute_pathBelow hall, isAbsolute_join hpart]
  · rw [components_pathBelow hl, components_pathBelow hall, components_join hpart hnames,
      List.append_assoc]

/-! ## Plain spellings -/

theorem segmentsFrom_ne_nil (acc cs : List Char) : segmentsFrom acc cs ≠ [] := by
  fun_induction segmentsFrom acc cs with
  | case1 acc => exact List.cons_ne_nil _ _
  | case2 acc cs ih => exact List.cons_ne_nil _ _
  | case3 acc c cs hc ih => exact ih

/-- Of two segments the first ends at a slash. -/
theorem exists_of_segmentsFrom {acc cs : List Char} {s next : String} {rest : List String}
    (h : segmentsFrom acc cs = s :: next :: rest) :
    ∃ cs', acc.reverse ++ cs = s.toList ++ '/' :: cs' ∧ segmentsFrom [] cs' = next :: rest := by
  fun_induction segmentsFrom acc cs with
  | case1 acc => simp at h
  | case2 acc cs ih =>
    obtain ⟨rfl, hrest⟩ := List.cons.inj h
    exact ⟨cs, by simp, hrest⟩
  | case3 acc c cs hc ih =>
    obtain ⟨cs', heq, hrest⟩ := ih h
    exact ⟨cs', by simpa using heq, hrest⟩

/-- A single segment is all that is left. -/
theorem eq_of_segmentsFrom {acc cs : List Char} {s : String} (h : segmentsFrom acc cs = [s]) :
    acc.reverse ++ cs = s.toList := by
  fun_induction segmentsFrom acc cs with
  | case1 acc =>
    obtain ⟨rfl, -⟩ := List.cons.inj h
    simp
  | case2 acc cs ih =>
    exact absurd (List.cons.inj h).2 (segmentsFrom_ne_nil [] cs)
  | case3 acc c cs hc ih =>
    rw [← ih h]
    simp

/-- A path with two segments or more is a name in front of a path with the others. -/
theorem exists_of_segments {part : Path} (h : segments part = name :: next :: rest) :
    ∃ inner, part = name ++ "/" ++ inner ∧ segments inner = next :: rest := by
  obtain ⟨cs, hcs, hrest⟩ := exists_of_segmentsFrom h
  refine ⟨String.ofList cs, String.toList_inj.mp ?_, by rwa [segments, String.toList_ofList]⟩
  simpa using hcs

/-- A path whose first segment names something is relative. -/
theorem isAbsolute_of_segments {part : Path} (h : segments part = name :: rest)
    (hname : name.isEmpty = false) : isAbsolute part = false := by
  unfold isAbsolute
  cases hpart : part.toList with
  | nil => rfl
  | cons c cs =>
    have hc : c ≠ '/' := by
      rintro rfl
      rw [segments, hpart, segmentsFrom] at h
      obtain ⟨rfl, -⟩ := List.cons.inj h
      simp at hname
    simpa using hc

/-- **A name and what follows it** are joined one after the other. -/
theorem join_slash {part : Path} {name : String} (hname : IsFileName name)
    (hpart : isAbsolute part = false) (folder : Path) :
    join folder (name ++ "/" ++ part) = join (join folder name) part := by
  have hne : name ≠ "" := by
    rintro rfl
    exact absurd hname.isEmpty_eq (by decide)
  have hrelative := isAbsolute_of_not_mem hname.no_slash
  have hlong : isAbsolute (name ++ "/" ++ part) = false := by
    rw [String.append_assoc, isAbsolute_append hne, hrelative]
  have hnext : ∀ front, join (front ++ name) part = front ++ name ++ "/" ++ part := by
    intro front
    have hends : endsWithSlash (front ++ name) = false := by
      have hlast : name.toList ≠ [] := fun h => hne (String.toList_eq_nil_iff.mp h)
      rw [endsWithSlash, String.toList_append, List.getLast?_append_of_ne_nil _ hlast]
      rw [beq_eq_false_iff_ne]
      intro hslash
      exact hname.no_slash (List.mem_of_getLast? hslash)
    simp [join, hpart, hends, hne]
  have hjoin : ∀ part : Path, isAbsolute part = false → join folder part =
      (if folder.isEmpty ∨ endsWithSlash folder then folder else folder ++ "/") ++ part := by
    intro part hpart
    rw [join, hpart, if_neg Bool.false_ne_true]
    split <;> rfl
  rw [hjoin name hrelative, hnext, hjoin _ hlong]
  simp only [String.append_assoc]

/-- **A path that is spelled with one slash between its names** is joined as its names are. -/
theorem join_eq_pathBelow {part : Path} (hplain : segments part = namesOf part)
    (hnames : ∀ name ∈ namesOf part, IsFileName name) (folder : Path) :
    join folder part = pathBelow folder (namesOf part) := by
  rw [← hplain] at hnames ⊢
  clear hplain
  generalize hsegments : segments part = names at hnames ⊢
  induction names generalizing part folder with
  | nil => exact absurd hsegments (segmentsFrom_ne_nil [] _)
  | cons name rest ih =>
    rw [List.forall_mem_cons] at hnames
    cases rest with
    | nil =>
      have hpart : part = name := String.toList_inj.mp (eq_of_segmentsFrom hsegments)
      rw [hpart]
      rfl
    | cons next rest =>
      obtain ⟨inner, rfl, hinner⟩ := exists_of_segments hsegments
      have hrelative := isAbsolute_of_segments hinner
        (hnames.2 next List.mem_cons_self).isEmpty_eq
      rw [join_slash hnames.1 hrelative, pathBelow_cons]
      exact ih (join folder name) hinner hnames.2

end Files

end CmdletForge
