import CmdletForge.Cmdlet.Generate
import CmdletForge.Proofs.Cmdlet.Outlines
import CmdletForge.Proofs.Files.Writes

/-!
# CmdletForge.Proofs.Cmdlet.Outputs

What a call that writes the cmdlets of a service leaves in the tree.

1. The cmdlets are written like any texts in turn, to the paths and with the texts of `outputs`.
   The first that cannot be written is the one that the call fails with (`writeAll_of_unwritten`).
2. All cmdlets are made before the first is written.  So a call that fails earlier has changed no
   file, and one that fails while it writes has written all cmdlets before that one and no other
   (`outputLaw`).
-/

namespace CmdletForge.Cmdlet

open Files (Tree SameWays overwritten)

/-! ## Writing in turn -/

/-- Where and what is written to a folder for cmdlets. -/
def outputs (folder : Path) (cmdlets : List SourceFile) : List (Path × String) :=
  cmdlets.map fun c => (Path.join folder c.fileName, c.source)

def outputPaths (folder : Path) (cmdlets : List SourceFile) : List Path :=
  cmdlets.map fun c => Path.join folder c.fileName

theorem writeAll_nil (t : Tree) (folder : Path) : writeAll t folder [] = (.ok [], t) := by rfl

theorem writeAll_cons (t : Tree) (folder : Path) (c : SourceFile) (rest : List SourceFile) :
    writeAll t folder (c :: rest) =
      match t.write (Path.join folder c.fileName) c.source with
      | .error cause => (.error (.output (.file c.fileName cause)), t)
      | .ok next =>
        ((writeAll next folder rest).1.map (Path.join folder c.fileName :: ·),
          (writeAll next folder rest).2) := by rfl

section
variable {t t' : Tree} {folder : Path} {c : SourceFile} {cmdlets before : List SourceFile}

/-- When each file can be written, all are, and their paths are reported. -/
theorem writeAll_of_written (h : t.writeEach (outputs folder cmdlets) = .ok t') :
    writeAll t folder cmdlets = (.ok (outputPaths folder cmdlets), t') := by
  induction cmdlets generalizing t with
  | nil =>
    obtain rfl := Tree.writeEach_nil_eq_ok_iff.mp h
    exact writeAll_nil t folder
  | cons c cmdlets ih =>
    obtain ⟨next, hnext, hrest⟩ := Tree.writeEach_cons_eq_ok_iff.mp h
    rw [writeAll_cons, hnext]
    simp only [ih hrest]
    rfl

/-- The first file that cannot be written ends the run; the ones before it stay. -/
theorem writeAll_of_unwritten (h : t.writeEach (outputs folder before) = .ok t')
    (hc : t'.write (Path.join folder c.fileName) c.source = .error cause)
    (after : List SourceFile) :
    writeAll t folder (before ++ c :: after) = (.error (.output (.file c.fileName cause)), t') := by
  induction before generalizing t with
  | nil =>
    obtain rfl := Tree.writeEach_nil_eq_ok_iff.mp h
    rw [List.nil_append, writeAll_cons, hc]
  | cons first before ih =>
    obtain ⟨next, hnext, hrest⟩ := Tree.writeEach_cons_eq_ok_iff.mp h
    rw [List.cons_append, writeAll_cons, hnext]
    simp only [ih hrest]
    rfl

/-- Either all cmdlets are written, or there is a first one that cannot be written. -/
theorem written_or_unwritten (t : Tree) (folder : Path) (cmdlets : List SourceFile) :
    (∃ t', t.writeEach (outputs folder cmdlets) = .ok t') ∨
      ∃ before c after t' cause, cmdlets = before ++ c :: after ∧
        t.writeEach (outputs folder before) = .ok t' ∧
        t'.write (Path.join folder c.fileName) c.source = .error cause := by
  induction cmdlets generalizing t with
  | nil => exact .inl ⟨t, rfl⟩
  | cons c cmdlets ih =>
    cases hc : t.write (Path.join folder c.fileName) c.source with
    | error cause => exact .inr ⟨[], c, cmdlets, t, cause, rfl, rfl, hc⟩
    | ok next =>
      obtain ⟨t', hall⟩ | ⟨before, first, after, t', cause, rfl, hbefore, hfirst⟩ := ih next
      · exact .inl ⟨t', Tree.writeEach_cons_eq_ok_iff.mpr ⟨next, hc, hall⟩⟩
      · exact .inr ⟨c :: before, first, after, t', cause, rfl,
          Tree.writeEach_cons_eq_ok_iff.mpr ⟨next, hc, hbefore⟩, hfirst⟩

end

variable {s : Service} {r : Registry} {t t' : Tree} {folder : Path}

/-! ## Making and writing -/

/-- The cmdlets of a service, one for each operation in order. -/
def Generates (s : Service) (r : Registry) (cmdlets : List SourceFile) : Prop :=
  List.Forall₂ (fun o c => generateOne s r o = .ok c) s.operations cmdlets

/-- The cmdlets are those of the operations, one each, in order. -/
theorem generate_eq_ok_iff : generate s r = .ok cmdlets ↔ Generates s r cmdlets :=
  mapM_eq_ok_iff

/-- The first operation that fails is the one that the service fails with. -/
theorem generate_of_error {before after : List Operation} {o : Operation}
    (hoperations : s.operations = before ++ o :: after)
    (hbefore : ∀ x ∈ before, ∃ c, generateOne s r x = .ok c)
    (ho : generateOne s r o = .error error) : generate s r = .error error := by
  rw [generate, hoperations, mapM_eq_error hbefore ho]

/-- A cmdlet's file is named after its class. -/
theorem fileName_of_generateOne {o : Operation} (h : generateOne s r o = .ok c) :
    c.fileName = classOf s o ++ ".cs" := by
  obtain ⟨x, hx, rfl⟩ := generateOne_eq_ok_iff.mp h
  obtain ⟨hservice, hoperation, -, -, -⟩ := outlines_of_outlineOf hx
  rw [SourceFile.fileName, Outline.cmdlet, hservice, hoperation]

/-- The files are named after the classes of the operations, in order. -/
theorem fileNames_of_generates (h : Generates s r cmdlets) :
    cmdlets.map SourceFile.fileName = s.operations.map fun o => classOf s o ++ ".cs" := by
  have hnames : List.Forall₂ (· = ·) (s.operations.map fun o => classOf s o ++ ".cs")
      (cmdlets.map SourceFile.fileName) := by
    rw [List.forall₂_map_left_iff, List.forall₂_map_right_iff]
    exact List.Forall₂.imp (fun o c ho => (fileName_of_generateOne ho).symm) h
  rw [List.forall₂_eq_eq_eq] at hnames
  exact hnames.symm

/-- The paths are those of the classes of the operations, in order. -/
theorem outputPaths_of_generates (h : Generates s r cmdlets) (folder : Path) :
    outputPaths folder cmdlets =
      s.operations.map fun o => Path.join folder (classOf s o ++ ".cs") := by
  calc outputPaths folder cmdlets
      = (cmdlets.map SourceFile.fileName).map (Path.join folder) := by simp [outputPaths]
    _ = s.operations.map fun o => Path.join folder (classOf s o ++ ".cs") := by
        simp [fileNames_of_generates h]

/-- A folder that cannot be made ends the run. -/
theorem generateTo_of_unmade (h : (t.makeFolders folder).1 = .error cause) :
    generateTo s r t folder =
      (.error (.output (.folder cause)), (t.makeFolders folder).2) := by
  obtain ⟨made, hmade⟩ : ∃ made, t.makeFolders folder = (.error cause, made) := ⟨_, Prod.ext h rfl⟩
  rw [generateTo, hmade]

/-- In a folder that exists the cmdlets are generated and then written. -/
theorem generateTo_of_made (h : (t.makeFolders folder).1 = .ok ()) :
    generateTo s r t folder =
      match generate s r with
      | .error e => (.error e, (t.makeFolders folder).2)
      | .ok cmdlets => writeAll (t.makeFolders folder).2 folder cmdlets := by
  obtain ⟨made, hmade⟩ : ∃ made, t.makeFolders folder = (.ok (), made) := ⟨_, Prod.ext h rfl⟩
  cases hcmdlets : generate s r <;> simp [generateTo, hmade, hcmdlets]

/-! ## What is left in the tree -/

/-- Cmdlets are written to the folder that was made in a tree, in turn: their texts stand where
the paths of their files lead, and every other file, link and folder is as it was. -/
def HasWritten (t : Tree) (folder : Path) (cmdlets : List SourceFile) (t' : Tree) : Prop :=
  ∃ puts, (t.makeFolders folder).2.Places (outputs folder cmdlets) puts ∧
    t'.root.fileAt = overwritten t.root.fileAt puts ∧ SameWays (t.makeFolders folder).2 t'

/-- Writing each output is what *written* means. -/
theorem hasWritten_of_writeEach
    (h : (t.makeFolders folder).2.writeEach (outputs folder cmdlets) = .ok t') :
    HasWritten t folder cmdlets t' := by
  obtain ⟨puts, hplaces, hfiles, hways⟩ := Tree.effect_of_writeEach h
  rw [Tree.fileAt_makeFolders] at hfiles
  exact ⟨puts, hplaces, hfiles, hways⟩

/-- How a call ends, and with what in the tree. -/
structure OutputLaw (s : Service) (r : Registry) (t : Tree) (folder : Path) : Prop where
  /-- Without the folder no file is touched... -/
  unmade : ∀ cause, (t.makeFolders folder).1 = .error cause →
    ∃ t', generateTo s r t folder = (.error (.output (.folder cause)), t') ∧
      t'.root.fileAt = t.root.fileAt
  /-- ...and neither is one when an operation fails, of which the first counts. -/
  ungenerated : (t.makeFolders folder).1 = .ok () → ∀ before o after error,
    s.operations = before ++ o :: after → (∀ x ∈ before, ∃ c, generateOne s r x = .ok c) →
    generateOne s r o = .error error →
    ∃ t', generateTo s r t folder = (.error error, t') ∧ t'.root.fileAt = t.root.fileAt
  /-- A file that cannot be written is named, and the cmdlets before it are written. -/
  unwritten : (t.makeFolders folder).1 = .ok () → ∀ before c after t' cause,
    Generates s r (before ++ c :: after) →
    (t.makeFolders folder).2.writeEach (outputs folder before) = .ok t' →
    t'.write (Path.join folder c.fileName) c.source = .error cause →
    generateTo s r t folder = (.error (.output (.file c.fileName cause)), t') ∧
      HasWritten t folder before t'
  /-- Nothing else can fail... -/
  written : (t.makeFolders folder).1 = .ok () → ∀ cmdlets t', Generates s r cmdlets →
    (t.makeFolders folder).2.writeEach (outputs folder cmdlets) = .ok t' →
    generateTo s r t folder = (.ok (outputPaths folder cmdlets), t')
  /-- ...and a call that does not fail answers with the paths of its files. -/
  success : ∀ paths t', generateTo s r t folder = (.ok paths, t') →
    paths = (s.operations.map fun o => Path.join folder (classOf s o ++ ".cs")) ∧
      ∃ cmdlets, Generates s r cmdlets ∧ HasWritten t folder cmdlets t'

/-- A call that answers with paths has made all cmdlets and written them. -/
theorem exists_of_generateTo_eq_ok (h : generateTo s r t folder = (.ok paths, t')) :
    ∃ cmdlets, Generates s r cmdlets ∧ paths = outputPaths folder cmdlets ∧
      (t.makeFolders folder).2.writeEach (outputs folder cmdlets) = .ok t' := by
  cases hmade : (t.makeFolders folder).1 with
  | error cause =>
    rw [generateTo_of_unmade hmade] at h
    simp at h
  | ok u =>
    rw [generateTo_of_made hmade] at h
    cases hcmdlets : generate s r with
    | error error => simp [hcmdlets] at h
    | ok cmdlets =>
      simp only [hcmdlets] at h
      obtain ⟨t'', hall⟩ | ⟨before, c, after, t'', cause, rfl, hbefore, hc⟩ :=
        written_or_unwritten (t.makeFolders folder).2 folder cmdlets
      · rw [writeAll_of_written hall] at h
        obtain ⟨rfl, rfl⟩ : outputPaths folder cmdlets = paths ∧ t'' = t' := by simpa using h
        exact ⟨cmdlets, generate_eq_ok_iff.mp hcmdlets, rfl, hall⟩
      · rw [writeAll_of_unwritten hbefore hc] at h
        simp at h

/-- **How a call ends.** -/
theorem outputLaw (s : Service) (r : Registry) (t : Tree) (folder : Path) :
    OutputLaw s r t folder where
  unmade cause h := by
    exact ⟨_, generateTo_of_unmade h, t.fileAt_makeFolders folder⟩
  ungenerated h before o after error hoperations hbefore ho := by
    rw [generateTo_of_made h, generate_of_error hoperations hbefore ho]
    exact ⟨_, rfl, t.fileAt_makeFolders folder⟩
  unwritten h before c after t' cause hcmdlets hbefore hc := by
    rw [generateTo_of_made h, generate_eq_ok_iff.mpr hcmdlets]
    exact ⟨writeAll_of_unwritten hbefore hc after, hasWritten_of_writeEach hbefore⟩
  written h cmdlets t' hcmdlets hall := by
    rw [generateTo_of_made h, generate_eq_ok_iff.mpr hcmdlets]
    exact writeAll_of_written hall
  success paths t' h := by
    obtain ⟨cmdlets, hcmdlets, rfl, hall⟩ := exists_of_generateTo_eq_ok h
    exact ⟨outputPaths_of_generates hcmdlets folder, cmdlets, hcmdlets,
      hasWritten_of_writeEach hall⟩

/-! ## A file that must not be written -/

/-- An operation that reads something of an object. -/
def readingOf (name noun : String) : Operation where
  name := name
  verb := "Read"
  noun := noun
  requestType := name ++ "Request"
  properties := []
  pagination := none
  confirmParameters := []
  customizations := []

/-- Objects and their rights are read under different nouns. -/
def readRights : Service :=
  { storeOf (readingOf "GetObject" "Object") with
    operations := [readingOf "GetObject" "Object", readingOf "GetObjectAcl" "ObjectAcl"] }

/-- A tree with nothing in it, in which the file for the rights must not be written. -/
def guardedTree : Tree where
  root := .folder []
  here := []
  refuses _ location _ :=
    if location = ["out", "ReadS3ObjectAclCmdlet.cs"] then some "Permission denied (os error 13)"
    else none

/-- The file for objects is written, and the one for their rights is named. -/
theorem outputLaw_guardedTree :
    ∃ c t', generateOne readRights .builtin (readingOf "GetObject" "Object") = .ok c ∧
      generateTo readRights .builtin guardedTree "out" =
        (.error (.output (.file "ReadS3ObjectAclCmdlet.cs"
          (.refused "Permission denied (os error 13)"))), t') ∧
      HasWritten guardedTree "out" [c] t' := by
  have hlaw := outputLaw readRights .builtin guardedTree "out"
  have hmade : (guardedTree.makeFolders "out").1 = .ok () := by rfl
  obtain ⟨c, d, hgenerates⟩ : ∃ c d, Generates readRights .builtin [c, d] :=
    ⟨_, _, generate_eq_ok_iff.mp rfl⟩
  obtain ⟨hc, hd⟩ : generateOne readRights .builtin (readingOf "GetObject" "Object") = .ok c ∧
      generateOne readRights .builtin (readingOf "GetObjectAcl" "ObjectAcl") = .ok d := by
    simpa [Generates, readRights] using hgenerates
  have hcname : c.fileName = "ReadS3ObjectCmdlet.cs" :=
    (fileName_of_generateOne hc).trans (by decide +kernel)
  have hdname : d.fileName = "ReadS3ObjectAclCmdlet.cs" :=
    (fileName_of_generateOne hd).trans (by decide +kernel)
  -- where the two files go, and what the tree says to that
  have hobject : (guardedTree.makeFolders "out").2.placeOf (Path.join "out" c.fileName) =
      .ok ["out", "ReadS3ObjectCmdlet.cs"] := by
    rw [hcname]
    decide +kernel
  have hrights : (guardedTree.makeFolders "out").2.placeOf (Path.join "out" d.fileName) =
      .ok ["out", "ReadS3ObjectAclCmdlet.cs"] := by
    rw [hdname]
    decide +kernel
  obtain ⟨t', hwrite, hrefuses⟩ : ∃ t', (guardedTree.makeFolders "out").2.write
      (Path.join "out" c.fileName) c.source = .ok t' ∧ t'.refuses = guardedTree.refuses := by
    rw [Tree.write_eq, hobject]
    exact ⟨_, rfl, rfl⟩
  obtain ⟨-, -, -, hways⟩ := Tree.effect_of_write hwrite
  have hrefused : t'.write (Path.join "out" d.fileName) d.source =
      .error (.refused "Permission denied (os error 13)") := by
    rw [Tree.write_eq, (Tree.placeOf_congr hways).mp hrights]
    simp [bind, Except.bind, Tree.putAt, hrefuses, guardedTree]
  have hbefore : (guardedTree.makeFolders "out").2.writeEach (outputs "out" [c]) = .ok t' :=
    Tree.writeEach_cons_eq_ok_iff.mpr ⟨t', hwrite, Tree.writeEach_nil_eq_ok_iff.mpr rfl⟩
  obtain ⟨hend, hfiles⟩ := hlaw.unwritten hmade [c] d [] t' _ hgenerates hbefore hrefused
  rw [hdname] at hend
  exact ⟨c, t', hc, hend, hfiles⟩

end CmdletForge.Cmdlet
