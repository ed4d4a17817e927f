import Mathlib.Data.List.Nodup
import CmdletForge.Proofs.Cmdlet.Outputs
import CmdletForge.Proofs.Files.Joins

/-!
# CmdletForge.Proofs.Cmdlet.OutputFiles

What stands in the files when the cmdlets of a service were written to a folder.

1. Nothing compares the names of the files.  In each stands the source of the last operation whose
   path leads to it, so of two operations with one verb and one noun the first source is lost
   (`generateTo_torrents`).
2. When the classes have different names, none of which leads out of a folder, and no link stands
   in the folder under one of them, each operation has a file of its own in the folder, and its
   path reads the source of its cmdlet (`FileLaw.apart`).
-/

namespace CmdletForge.Cmdlet

open Files (Tree SameWays Way IsFileName)
open CmdletForge.Path (join)

variable {s : Service} {r : Registry} {t t' made : Tree} {folder : Path} {o : Operation}

/-! ## Names of files -/

/-- The names of the classes of a service are different, and no class is called like a path. -/
structure NamesApart (s : Service) : Prop where
  nodup : (s.operations.map (classOf s)).Nodup
  no_slash : ∀ o ∈ s.operations, '/' ∉ (classOf s o).toList

/-- No link stands in a folder under the name of a file for a service. -/
def NoLinks (s : Service) (t : Tree) (folder : Path) : Prop :=
  ∀ home, t.LeadsTo folder home → ∀ o ∈ s.operations, ∀ target,
    t.root.wayAt (home ++ [classOf s o ++ ".cs"]) ≠ some (.link target)

/-- A class name without a slash makes a file name. -/
theorem isFileName_of_not_mem (h : '/' ∉ (classOf s o).toList) :
    IsFileName (classOf s o ++ ".cs") := by
  have hlong : 2 < (classOf s o ++ ".cs").length := by
    rw [String.length_append]
    have : ".cs".length = 3 := by decide
    omega
  have hne : ∀ short : String, short.length ≤ 2 → classOf s o ++ ".cs" ≠ short := by
    rintro short hshort rfl
    omega
  refine ⟨by simpa using h, ?_, hne ".." (by decide)⟩
  simpa [Path.isIdle] using hne "." (by decide)

/-! ## What the files hold -/

/-- What the files hold that a call has written for the cmdlets of a service. -/
structure FileLaw (s : Service) (t : Tree) (folder : Path) (cmdlets : List SourceFile)
    (paths : List Path) (t' : Tree) : Prop where
  /-- There is one path for each operation. -/
  length_eq : paths.length = s.operations.length
  paths_eq : paths = outputPaths folder cmdlets
  /-- A source stands where its path leads, unless the path of a later one leads there too. -/
  last : ∀ before c after, cmdlets = before ++ c :: after →
    ∃ l, (t.makeFolders folder).2.placeOf (join folder c.fileName) = .ok l ∧
      ((∀ d ∈ after, (t.makeFolders folder).2.placeOf (join folder d.fileName) ≠ .ok l) →
        t'.root.fileAt l = some (some c.source))
  /-- Under different names, and without links, each has a file of its own in the folder. -/
  apart : NamesApart s → NoLinks s (t.makeFolders folder).2 folder → ∀ c ∈ cmdlets,
    ∃ home, (t.makeFolders folder).2.LeadsTo folder home ∧
      t'.root.fileAt (home ++ [c.fileName]) = some (some c.source) ∧
      t'.read (join folder c.fileName) = .ok c.source

section
variable {cmdlets before after : List SourceFile} {c d : SourceFile}

/-- Of the cmdlets whose paths lead to one place the last one stands there. -/
theorem fileAt_of_last (h : HasWritten t folder cmdlets t')
    (hsplit : cmdlets = before ++ c :: after)
    (hplace : (t.makeFolders folder).2.placeOf (join folder c.fileName) = .ok l)
    (hafter : ∀ d ∈ after,
      (t.makeFolders folder).2.placeOf (join folder d.fileName) ≠ .ok l) :
    t'.root.fileAt l = some (some c.source) := by
  obtain ⟨puts, hplaces, hfiles, -⟩ := h
  subst hsplit
  rw [outputs, List.map_append, List.map_cons] at hplaces
  rw [hfiles]
  refine hplaces.overwritten_eq hplace ?_
  simpa using hafter

/-- The place of every file that was written can be reached. -/
theorem exists_placeOf (h : HasWritten t folder cmdlets t') (hc : c ∈ cmdlets) :
    ∃ l, (t.makeFolders folder).2.placeOf (join folder c.fileName) = .ok l := by
  obtain ⟨puts, hplaces, -, -⟩ := h
  have hmem : (join folder c.fileName, c.source) ∈ outputs folder cmdlets :=
    List.mem_map_of_mem hc
  obtain ⟨l, hplace⟩ := hplaces.exists_place hmem
  exact ⟨l, hplace⟩

/-- Every file is named for an operation. -/
theorem exists_operation (h : Generates s r cmdlets) (hc : c ∈ cmdlets) :
    ∃ o ∈ s.operations, c.fileName = classOf s o ++ ".cs" := by
  have hname : c.fileName ∈ s.operations.map fun o => classOf s o ++ ".cs" := by
    rw [← fileNames_of_generates h]
    exact List.mem_map_of_mem hc
  obtain ⟨o, ho, hname⟩ := List.mem_map.mp hname
  exact ⟨o, ho, hname.symm⟩

/-- Operations with different class names get different files. -/
theorem nodup_fileNames (h : Generates s r cmdlets) (hnames : NamesApart s) :
    (cmdlets.map SourceFile.fileName).Nodup := by
  have hinjective : Function.Injective fun name : String => name ++ ".cs" := by
    intro a b hab
    simpa using hab
  have hmap : cmdlets.map SourceFile.fileName =
      (s.operations.map (classOf s)).map fun name => name ++ ".cs" := by
    rw [fileNames_of_generates h, List.map_map]
    rfl
  rw [hmap]
  exact hnames.nodup.map hinjective

/-- Without a link in the way, a cmdlet goes into the folder under the name of its file. -/
theorem place_of_apart (h : Generates s r cmdlets) (hnames : NamesApart s)
    (hlinks : NoLinks s made folder) (hc : c ∈ cmdlets)
    (hplace : made.placeOf (join folder c.fileName) = .ok l) :
    ∃ home, made.LeadsTo folder home ∧ made.Names (join folder c.fileName) home c.fileName ∧
      l = home ++ [c.fileName] := by
  obtain ⟨o, ho, hname⟩ := exists_operation h hc
  have hfile : IsFileName c.fileName := by
    rw [hname]
    exact isFileName_of_not_mem (hnames.no_slash o ho)
  obtain ⟨home, hhome, hpath, hl | ⟨target, hlink⟩⟩ := Tree.home_of_placeOf_join hfile hplace
  · exact ⟨home, hhome, hpath, hl⟩
  · rw [hname] at hlink
    exact absurd hlink (hlinks home hhome o ho target)

/-- Then no other cmdlet goes there. -/
theorem fileAt_of_apart (h : Generates s r cmdlets) (hwritten : HasWritten t folder cmdlets t')
    (hnames : NamesApart s) (hlinks : NoLinks s (t.makeFolders folder).2 folder)
    (hc : c ∈ cmdlets) :
    ∃ home, (t.makeFolders folder).2.LeadsTo folder home ∧
      t'.root.fileAt (home ++ [c.fileName]) = some (some c.source) ∧
      t'.read (join folder c.fileName) = .ok c.source := by
  obtain ⟨l, hplace⟩ := exists_placeOf hwritten hc
  obtain ⟨home, hhome, hpath, rfl⟩ := place_of_apart h hnames hlinks hc hplace
  obtain ⟨before, after, hsplit⟩ := List.append_of_mem hc
  have hfile : t'.root.fileAt (home ++ [c.fileName]) = some (some c.source) := by
    refine fileAt_of_last hwritten hsplit hplace fun d hd hd' => ?_
    have hmem : d ∈ cmdlets := by simp [hsplit, hd]
    obtain ⟨home', -, -, hl⟩ := place_of_apart h hnames hlinks hmem hd'
    have hsame : c.fileName = d.fileName := by simpa using (List.append_inj' hl rfl).2
    have hnodup := nodup_fileNames h hnames
    rw [hsplit, List.map_append, List.map_cons, List.nodup_append] at hnodup
    obtain ⟨-, hnodup, -⟩ := hnodup
    exact (List.nodup_cons.mp hnodup).1 (hsame ▸ List.mem_map_of_mem hd)
  obtain ⟨-, -, -, hways⟩ := hwritten
  exact ⟨home, hhome, hfile, (hpath.congr hways).read hfile⟩

end

/-- **The files of a service.**  In each stands the source of the last operation whose path leads
there. -/
theorem fileLaw (h : generateTo s r t folder = (.ok paths, t')) :
    ∃ cmdlets, Generates s r cmdlets ∧ FileLaw s t folder cmdlets paths t' := by
  obtain ⟨cmdlets, hcmdlets, rfl, hall⟩ := exists_of_generateTo_eq_ok h
  have hwritten := hasWritten_of_writeEach hall
  refine ⟨cmdlets, hcmdlets, ?_, rfl, fun before c after hsplit => ?_,
    fun hnames hlinks c hc => ?_⟩
  · rw [outputPaths_of_generates hcmdlets, List.length_map]
  · obtain ⟨l, hplace⟩ := exists_placeOf hwritten (show c ∈ cmdlets by simp [hsplit])
    exact ⟨l, hplace, fileAt_of_last hwritten hsplit hplace⟩
  · exact fileAt_of_apart hcmdlets hwritten hnames hlinks hc

/-! ## Two operations that read -/

/-- Objects and their torrents are read under one noun. -/
def readTorrents : Service :=
  { storeOf (readingOf "GetObject" "Object") with
    operations := [readingOf "GetObject" "Object", readingOf "GetObjectTorrent" "Object"] }

/-- A tree with nothing in it. -/
def emptyTree : Tree where
  root := .folder []
  here := []

/-- The two files of a service with two class names, both as generated. -/
theorem fileLaw_readRights :
    ∃ t' cmdlets,
      generateTo readRights .builtin emptyTree "out" =
        (.ok ["out/ReadS3ObjectCmdlet.cs", "out/ReadS3ObjectAclCmdlet.cs"], t') ∧
      Generates readRights .builtin cmdlets ∧
      ∀ c ∈ cmdlets, t'.read (join "out" c.fileName) = .ok c.source := by
  have hpaths : (generateTo readRights .builtin emptyTree "out").1 =
      .ok ["out/ReadS3ObjectCmdlet.cs", "out/ReadS3ObjectAclCmdlet.cs"] := by decide +kernel
  obtain ⟨t', h⟩ : ∃ t', generateTo readRights .builtin emptyTree "out" =
      (.ok ["out/ReadS3ObjectCmdlet.cs", "out/ReadS3ObjectAclCmdlet.cs"], t') :=
    ⟨_, Prod.ext hpaths rfl⟩
  obtain ⟨cmdlets, hcmdlets, hlaw⟩ := fileLaw h
  have hnames : NamesApart readRights := ⟨by decide +kernel, by decide +kernel⟩
  have hlinks : NoLinks readRights (emptyTree.makeFolders "out").2 "out" := by
    intro home hhome o ho target
    have hout : Files.walk (emptyTree.makeFolders "out").2.root Files.mostLinks
        (Files.startOf (emptyTree.makeFolders "out").2.here "out") (Path.segments "out") =
          .ok ["out"] := by decide +kernel
    obtain rfl : home = ["out"] := Except.ok.inj ((Files.walk_of_leads hhome).symm.trans hout)
    have hfree : ∀ o ∈ readRights.operations, (emptyTree.makeFolders "out").2.root.wayAt
        (["out"] ++ [classOf readRights o ++ ".cs"]) = none := by decide +kernel
    rw [hfree o ho]
    simp
  refine ⟨t', cmdlets, h, hcmdlets, fun c hc => ?_⟩
  obtain ⟨-, -, -, hread⟩ := hlaw.apart hnames hlinks c hc
  exact hread

/-- Two operations with one verb and one noun are written to one file: two paths are answered, and
the source of the first operation is lost. -/
theorem generateTo_torrents :
    ∃ c d, Generates readTorrents .builtin [c, d] ∧ c.source ≠ d.source ∧
      (generateTo readTorrents .builtin emptyTree "out").1 =
        .ok ["out/ReadS3ObjectCmdlet.cs", "out/ReadS3ObjectCmdlet.cs"] ∧
      (generateTo readTorrents .builtin emptyTree "out").2.read "out/ReadS3ObjectCmdlet.cs" =
        .ok d.source :=
  ⟨_, _, generate_eq_ok_iff.mp rfl, by decide +kernel, by decide +kernel, by decide +kernel⟩

end CmdletForge.Cmdlet
