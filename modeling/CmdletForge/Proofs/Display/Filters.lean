import CmdletForge.Proofs.Display.CapturedViews
import CmdletForge.Proofs.Display.Loading
import CmdletForge.Proofs.Files.Reaching
import CmdletForge.Proofs.Lists.Passes

/-!
# CmdletForge.Proofs.Display.Filters

Which custom documents a load finds, in the whole folder and in a part of it.

1. A document is known by its name (`IsDocumentName`), and read from the place where its file
   stands (`readDocuments_eq`, `readDocument_eq_ok_iff`).
2. So a folder lists one document for each such place, in the order of the places
   (`isListing_of_readDocuments`).
3. The places below a folder inside are the places of that folder behind its names, so the
   documents of a part are those of the whole under it (`exists_readDocuments_join`).
4. `filterLaw` says this of loads.
-/

namespace CmdletForge.Display

open Files (Entry Tree Location IsProperName IsFileName namesOf pathBelow)

/-! ## Names of documents -/

/-- A name with a stem and the extension of custom documents, in capital or small letters. -/
def IsDocumentName (name : String) : Prop :=
  ∃ stem extension, name = stem ++ "." ++ extension ∧ stem ≠ "" ∧
    Text.sameIgnoringCase extension "ps1xml" = true

/-- The extension follows the last dot, and a name that begins with it has none. -/
theorem extensionOf_eq_some_iff {name extension : String} :
    Path.extensionOf name = some extension ↔
      ∃ stem, name = stem ++ "." ++ extension ∧ stem ≠ "" ∧ '.' ∉ extension.toList := by
  constructor
  · intro h
    have hsplit := List.takeWhile_append_dropWhile (p := (· ≠ '.')) (l := name.toList.reverse)
    have hpoint := List.head?_dropWhile_not (· ≠ '.') name.toList.reverse
    rw [Path.extensionOf] at h
    split at h
    next first second rest hdrop =>
      rw [hdrop] at hsplit hpoint
      obtain rfl : first = '.' := by simpa using hpoint
      obtain rfl := Option.some.inj h
      refine ⟨String.ofList (second :: rest).reverse, ?_, by simp, ?_⟩
      · have hname := congrArg List.reverse hsplit
        rw [List.reverse_reverse] at hname
        refine String.toList_inj.mp (hname.symm.trans ?_)
        simp
      · intro hmem
        rw [String.toList_ofList, List.mem_reverse] at hmem
        simpa using List.all_eq_true.mp List.all_takeWhile _ hmem
    next => contradiction
  · rintro ⟨stem, rfl, hstem, hextension⟩
    have hreverse : (stem ++ "." ++ extension).toList.reverse =
        extension.toList.reverse ++ '.' :: stem.toList.reverse := by simp
    have hpos : ∀ c ∈ extension.toList.reverse, decide (c ≠ '.') = true := by
      intro c hc
      rw [decide_eq_true_iff]
      rintro rfl
      exact hextension (List.mem_reverse.mp hc)
    obtain ⟨c, cs, hcs⟩ := List.exists_cons_of_ne_nil
      (List.reverse_ne_nil_iff.mpr fun h => hstem (String.toList_eq_nil_iff.mp h))
    rw [Path.extensionOf, hreverse, List.dropWhile_append_of_pos hpos,
      List.takeWhile_append_of_pos hpos, hcs]
    simp

/-- There is no point in the extension of custom documents. -/
theorem not_mem_of_sameIgnoringCase {extension : String}
    (h : Text.sameIgnoringCase extension "ps1xml" = true) : '.' ∉ extension.toList := by
  intro hmem
  rw [Text.sameIgnoringCase, beq_iff_eq] at h
  have hpoint : Text.lowerAscii '.' ∈ Text.foldAscii extension := List.mem_map_of_mem hmem
  rw [h] at hpoint
  revert hpoint
  decide

/-- The names of documents are those with the extension, in whatever case. -/
theorem isDocumentName_iff {name : String} :
    IsDocumentName name ↔
      (Path.extensionOf name).any (fun e => Text.sameIgnoringCase e "ps1xml") = true := by
  rw [Option.any_eq_true]
  constructor
  · rintro ⟨stem, extension, hname, hstem, hsame⟩
    exact ⟨extension, extensionOf_eq_some_iff.mpr
      ⟨stem, hname, hstem, not_mem_of_sameIgnoringCase hsame⟩, hsame⟩
  · rintro ⟨extension, hextension, hsame⟩
    obtain ⟨stem, hname, hstem, -⟩ := extensionOf_eq_some_iff.mp hextension
    exact ⟨stem, extension, hname, hstem, hsame⟩

/-- Whether a document stands at a location, by its name. -/
def isDocumentPlace (l : Location) : Bool :=
  l.getLast?.any fun name =>
    (Path.extensionOf name).any fun e => Text.sameIgnoringCase e "ps1xml"

/-- A place of a document ends in the name of one. -/
theorem isDocumentPlace_iff {l : Location} :
    isDocumentPlace l = true ↔ ∃ name, l.getLast? = some name ∧ IsDocumentName name := by
  simp only [isDocumentPlace, Option.any_eq_true, isDocumentName_iff]

/-- Where a document stands does not depend on the folder. -/
theorem isDocumentPlace_append {l : Location} (hl : l ≠ []) (names : List String) :
    isDocumentPlace (names ++ l) = isDocumentPlace l := by
  rw [isDocumentPlace, isDocumentPlace, List.getLast?_append_of_ne_nil _ hl]

namespace Collection

open Question (ask)

/-- A path below the folder leads to a document exactly when its place says so. -/
theorem isDocumentPath_pathBelow {l : Location} (hnames : ∀ name ∈ l, IsFileName name)
    (hl : l ≠ []) (folder : Path) :
    isDocumentPath (pathBelow folder l) = isDocumentPlace l := by
  have hlast := List.getLast?_eq_some_getLast hl
  rw [isDocumentPath, Path.extension?, Files.fileName_pathBelow hnames hlast, isDocumentPlace,
    hlast]
  rfl

/-! ## Documents in files -/

/-- Documents that differ in the spelling of their paths at most. -/
structure SameDocument (d d' : CustomDocument) : Prop where
  path : Path.Same d.path d'.path
  typeNames_eq : d.typeNames = d'.typeNames
  views_eq : d.views = d'.views

/-- A text is the same document at every path, but for the path. -/
theorem parse_path {p : Path} {text : String} {d : CustomDocument}
    (h : CustomDocument.parse p text = .ok d) (q : Path) :
    d.path = p ∧ CustomDocument.parse q text = .ok { d with path := q } := by
  obtain ⟨k, hcapture, rfl⟩ := CustomDocument.parse_eq_ok_iff.mp h
  exact ⟨rfl, CustomDocument.parse_eq_ok_iff.mpr ⟨k, hcapture, rfl⟩⟩

section
variable {t : Tree} {folder : Path} {home l : Location} {e : Entry}

/-- The places of a folder are below it, and their names are proper. -/
theorem ne_nil_of_mem_places {entries : List (String × Entry)}
    (h : (Entry.folder entries).IsOrderly) (hl : l ∈ (Entry.folder entries).places) : l ≠ [] := by
  rintro rfl
  obtain ⟨text, htext⟩ := (h.mem_places []).mp hl
  simp at htext

/-- Places below an orderly folder are made of file names. -/
theorem isFileName_of_mem_places (h : e.IsOrderly) (hl : l ∈ e.places) :
    ∀ name ∈ l, IsFileName name := by
  obtain ⟨text, htext⟩ := (h.mem_places l).mp hl
  exact h.isFileName htext

/-- **What is read at a place** is the document that the text of its file is. -/
theorem readDocument_eq_ok_iff {entries : List (String × Entry)} {d : CustomDocument}
    (hreach : t.Reaches folder home) (he : t.root.get? home = some (.folder entries))
    (h : (Entry.folder entries).IsOrderly) (hl : l ∈ (Entry.folder entries).places) :
    readDocument t (pathBelow folder l) = .ok d ↔
      ∃ text, (Entry.folder entries).get? l = some (.file (some text)) ∧
        CustomDocument.parse (pathBelow folder l) text = .ok d := by
  obtain ⟨content, hfile⟩ := (h.mem_places l).mp hl
  have hfile' : t.root.get? (home ++ l) = some (.file content) := by
    rw [Entry.get?_append, he]
    exact hfile
  rw [readDocument, hreach.read_pathBelow (h.isProperName hfile) (ne_nil_of_mem_places h hl) hfile',
    hfile]
  cases content with
  | none => simp [Except.mapError, bind, Except.bind]
  | some text =>
    change (CustomDocument.parse (pathBelow folder l) text).mapError _ = _ ↔ _
    cases hparse : CustomDocument.parse (pathBelow folder l) text <;>
      simp [Except.mapError, hparse]

/-- **The documents of a folder** are read place by place. -/
theorem readDocuments_eq {entries : List (String × Entry)}
    (hfolder : t.entry? folder = some (.folder entries)) (h : (Entry.folder entries).IsOrderly) :
    readDocuments t folder = ((Entry.folder entries).places.filter isDocumentPlace).mapM
      fun l => readDocument t (pathBelow folder l) := by
  have hfiles : t.filesBelow folder = (Entry.folder entries).places.map (pathBelow folder) := by
    rw [Tree.filesBelow, hfolder]
    exact Files.Entry.files_eq folder _
  have hfilter : (Entry.folder entries).places.filter (isDocumentPath ∘ pathBelow folder) =
      (Entry.folder entries).places.filter isDocumentPlace :=
    List.filter_congr fun l hl => isDocumentPath_pathBelow (isFileName_of_mem_places h hl)
      (ne_nil_of_mem_places h hl) folder
  rw [readDocuments, hfiles, List.filter_map, List.mapM_map, hfilter]
  rfl

/-- Where there is no folder there are no documents. -/
theorem readDocuments_of_not_isFolder (h : t.isFolder folder = false) :
    readDocuments t folder = .ok [] := by
  have hfiles : t.filesBelow folder = [] := by
    rw [Tree.filesBelow]
    split
    next entries hentry =>
      rw [Tree.isFolder, hentry] at h
      contradiction
    next => rfl
  rw [readDocuments, hfiles]
  rfl

end

/-- A collection that has loaded nothing answers a load from the files. -/
theorem ask_load_of_not_loaded {c : Collection} (h : c.loaded = none) (t : Tree) (root : Path)
    (filter : Option String) :
    (ask (load t root filter) c).1 = readDocuments t (documentFolder root filter) := by
  rw [ask_load, c.load_of_not_loaded h]

/-! ## The law -/

/-- A file with the extension of custom documents stands at a location. -/
def IsDocumentFile (e : Entry) (l : Location) : Prop :=
  (∃ text, e.get? l = some (.file text)) ∧ ∃ name, l.getLast? = some name ∧ IsDocumentName name

/-- The documents that a load finds in a folder. -/
structure IsListing (folder : Path) (e : Entry) (places : List Location)
    (documents : List CustomDocument) : Prop where
  /-- The places come in strictly ascending order, name by name: each once, and all files of a
  folder where its name has its place. -/
  ascending : places.Pairwise (· < ·)
  /-- They are where files stand whose names have the extension of custom documents. -/
  mem_iff : ∀ l, l ∈ places ↔ IsDocumentFile e l
  /-- There is one document for each, with the path and the text of the file. -/
  read : List.Forall₂ (fun l d => ∃ text, e.get? l = some (.file (some text)) ∧
    CustomDocument.parse (pathBelow folder l) text = .ok d) places documents

/-- What loads find below a root, in parts of the folder of custom documents. -/
structure FilterLaw (t : Tree) (root : Path) : Prop where
  /-- A load succeeds when every such file has a text that is a document. -/
  succeeds : ∀ (c : Collection) filter e, c.loaded = none →
    t.entry? (documentFolder root filter) = some e → e.isFolder = true →
      ((∃ documents, (ask (load t root filter) c).1 = .ok documents) ↔
        ∀ l, IsDocumentFile e l → ∃ text d, e.get? l = some (.file (some text)) ∧
          CustomDocument.parse (pathBelow (documentFolder root filter) l) text = .ok d)
  /-- A load that succeeds has one document for each file with the extension, at any depth. -/
  listed : ∀ (c : Collection) filter e documents, c.loaded = none →
    t.entry? (documentFolder root filter) = some e → e.isFolder = true →
      (ask (load t root filter) c).1 = .ok documents →
        ∃ places, IsListing (documentFolder root filter) e places documents
  /-- When all documents can be loaded, so can those of a part: they are the documents under the
  folder of that part, in the same order. -/
  selected : ∀ (c c' : Collection) part e folder all, c.loaded = none → c'.loaded = none →
    part ≠ "" → Path.isAbsolute part = false → t.entry? (documentFolder root none) = some e →
      e.get? (namesOf part) = some folder → folder.isFolder = true →
        (ask (load t root none) c).1 = .ok all → ∃ found,
          (ask (load t root (some part)) c').1 = .ok found ∧
            List.Forall₂ SameDocument found
              (all.filter fun d => Path.isUnder (documentFolder root (some part)) d.path) ∧
            (Path.segments part = namesOf part → found =
              all.filter fun d => Path.isUnder (documentFolder root (some part)) d.path)
  /-- Where there is no folder, there are no documents. -/
  absent : ∀ (c : Collection) filter, c.loaded = none →
    t.isFolder (documentFolder root filter) = false → (ask (load t root filter) c).1 = .ok []
  /-- An empty part is the whole. -/
  empty : ∀ c : Collection, ask (load t root (some "")) c = ask (load t root none) c

section
variable {t : Tree} {root folder : Path} {home : Location} {part : Path}
  {documents : List CustomDocument}

/-- The places that are kept are those of the document files. -/
theorem mem_filter_places_iff {e : Entry} {l : Location} (h : e.IsOrderly) :
    l ∈ e.places.filter isDocumentPlace ↔ IsDocumentFile e l := by
  rw [List.mem_filter, h.mem_places, isDocumentPlace_iff]
  rfl

/-- **When the documents of a folder can be read.** -/
theorem exists_readDocuments_iff {entries : List (String × Entry)}
    (hfolder : t.entry? folder = some (.folder entries)) (h : (Entry.folder entries).IsOrderly) :
    (∃ documents, readDocuments t folder = .ok documents) ↔
      ∀ l, IsDocumentFile (.folder entries) l → ∃ text d,
        (Entry.folder entries).get? l = some (.file (some text)) ∧
          CustomDocument.parse (pathBelow folder l) text = .ok d := by
  obtain ⟨home, hreach, hhome⟩ := Tree.exists_reaches hfolder rfl
  rw [readDocuments_eq hfolder h]
  constructor
  · rintro ⟨documents, hread⟩ l hl
    rw [← mem_filter_places_iff h] at hl
    obtain ⟨d, -, hd⟩ := exists_right_of_mem (mapM_eq_ok_iff.mp hread) hl
    obtain ⟨text, hfile, hparse⟩ :=
      (readDocument_eq_ok_iff hreach hhome h (List.mem_filter.mp hl).1).mp hd
    exact ⟨text, d, hfile, hparse⟩
  · intro hall
    refine exists_mapM_eq_ok fun l hl => ?_
    obtain ⟨text, d, hfile, hparse⟩ := hall l ((mem_filter_places_iff h).mp hl)
    exact ⟨d, (readDocument_eq_ok_iff hreach hhome h (List.mem_filter.mp hl).1).mpr
      ⟨text, hfile, hparse⟩⟩

/-- **What a folder of documents lists.** -/
theorem isListing_of_readDocuments {entries : List (String × Entry)}
    (hfolder : t.entry? folder = some (.folder entries)) (h : (Entry.folder entries).IsOrderly)
    (hread : readDocuments t folder = .ok documents) :
    IsListing folder (.folder entries) ((Entry.folder entries).places.filter isDocumentPlace)
      documents := by
  obtain ⟨home, hreach, hhome⟩ := Tree.exists_reaches hfolder rfl
  rw [readDocuments_eq hfolder h, mapM_eq_ok_iff] at hread
  have hplaces := (List.forall₂_and_left _ documents).mpr ⟨fun l hl => hl, hread⟩
  refine ⟨h.pairwise_places.filter _, fun l => mem_filter_places_iff h, hplaces.imp ?_⟩
  · rintro l d ⟨hl, hd⟩
    exact (readDocument_eq_ok_iff hreach hhome h (List.mem_filter.mp hl).1).mp hd

/-- The documents of a folder, with the places from which they are read. -/
theorem forall₂_of_readDocuments {entries : List (String × Entry)}
    (hfolder : t.entry? folder = some (.folder entries)) (h : (Entry.folder entries).IsOrderly)
    (hread : readDocuments t folder = .ok documents) :
    List.Forall₂ (fun l d => l ∈ (Entry.folder entries).places ∧
      readDocument t (pathBelow folder l) = .ok d)
        ((Entry.folder entries).places.filter isDocumentPlace) documents := by
  rw [readDocuments_eq hfolder h, mapM_eq_ok_iff] at hread
  exact (List.forall₂_and_left _ documents).mpr ⟨fun l hl => (List.mem_filter.mp hl).1, hread⟩

section
variable {entries inside : List (String × Entry)} {l : Location} {d : CustomDocument}
  (hreach : t.Reaches folder home) (he : t.root.get? home = some (.folder entries))
  (h : (Entry.folder entries).IsOrderly) (hpart : Path.isAbsolute part = false)
  (hinner : (Entry.folder entries).get? (namesOf part) = some (.folder inside))
include hreach he h hpart hinner

/-- The documents of a folder that lie under a part of it, with their places in the part. -/
theorem forall₂_filter_isUnder (hread : readDocuments t folder = .ok documents) :
    List.Forall₂ (fun l d => l ∈ (Entry.folder inside).places ∧
      readDocument t (pathBelow folder (namesOf part ++ l)) = .ok d)
        ((Entry.folder inside).places.filter isDocumentPlace)
        (documents.filter fun d => Path.isUnder (Path.join folder part) d.path) := by
  have hnames := h.isFileName hinner
  have hall := forall₂_of_readDocuments (hreach.entry?_eq.trans he) h hread
  -- a document lies under the part when its place does
  have hunder : List.Forall₂ (fun l d => l ∈ (Entry.folder entries).places ∧
      readDocument t (pathBelow folder l) = .ok d)
        (((Entry.folder entries).places.filter isDocumentPlace).filter
          fun l => (namesOf part).isPrefixOf l)
        (documents.filter fun d => Path.isUnder (Path.join folder part) d.path) := by
    refine List.rel_filter ?_ hall
    rintro l d ⟨hl, hd⟩
    obtain ⟨text, -, hparse⟩ := (readDocument_eq_ok_iff hreach he h hl).mp hd
    show (namesOf part).isPrefixOf l = true ↔ Path.isUnder _ d.path = true
    rw [(parse_path hparse folder).1,
      Files.isUnder_join_iff hpart hnames (isFileName_of_mem_places h hl)]
  have hplaces : ((Entry.folder entries).places.filter isDocumentPlace).filter
      (fun l => (namesOf part).isPrefixOf l) =
        ((Entry.folder inside).places.filter isDocumentPlace).map (namesOf part ++ ·) := by
    have hsame : (Entry.folder inside).places.filter (isDocumentPlace ∘ (namesOf part ++ ·)) =
        (Entry.folder inside).places.filter isDocumentPlace :=
      List.filter_congr fun l hl =>
        isDocumentPlace_append (ne_nil_of_mem_places (h.get? hinner) hl) _
    rw [List.filter_comm, h.filter_places hinner, List.filter_map, hsame]
  rw [hplaces, List.forall₂_map_left_iff] at hunder
  have hmem := (List.forall₂_and_left _ _).mpr
    ⟨fun l hl => (List.mem_filter.mp hl).1, hunder⟩
  exact hmem.imp fun l d ⟨hl, hd⟩ => ⟨hl, hd.2⟩

/-- A path to a part of the folder reaches the folder of that name. -/
theorem reaches_join : t.Reaches (Path.join folder part) (home ++ namesOf part) ∧
    t.root.get? (home ++ namesOf part) = some (.folder inside) := by
  have hhome : t.root.get? (home ++ namesOf part) = some (.folder inside) := by
    rw [Entry.get?_append, he]
    exact hinner
  exact ⟨hreach.join hpart (h.isProperName hinner) hhome, hhome⟩

/-- **A document under a part** is read again under its path below the part. -/
theorem readDocument_join (hl : l ∈ (Entry.folder inside).places)
    (hd : readDocument t (pathBelow folder (namesOf part ++ l)) = .ok d) :
    readDocument t (pathBelow (Path.join folder part) l) =
        .ok { d with path := pathBelow (Path.join folder part) l } ∧
      d.path = pathBelow folder (namesOf part ++ l) := by
  have horderly := h.get? hinner
  obtain ⟨hreach', hhome⟩ := reaches_join hreach he h hpart hinner
  have hl' : namesOf part ++ l ∈ (Entry.folder entries).places := by
    rw [h.mem_places, Entry.get?_append, hinner]
    exact (horderly.mem_places l).mp hl
  obtain ⟨text, hfile, hparse⟩ := (readDocument_eq_ok_iff hreach he h hl').mp hd
  rw [Entry.get?_append, hinner] at hfile
  exact ⟨(readDocument_eq_ok_iff hreach' hhome horderly hl).mpr
    ⟨text, hfile, (parse_path hparse _).2⟩, (parse_path hparse folder).1⟩

/-- **A part of the documents**: those of a folder inside, which are read in the same order. -/
theorem exists_readDocuments_join (hread : readDocuments t folder = .ok documents) : ∃ found,
    readDocuments t (Path.join folder part) = .ok found ∧
      List.Forall₂ SameDocument found
        (documents.filter fun d => Path.isUnder (Path.join folder part) d.path) ∧
      (Path.segments part = namesOf part →
        found = documents.filter fun d => Path.isUnder (Path.join folder part) d.path) := by
  have hnames := h.isFileName hinner
  have horderly := h.get? hinner
  obtain ⟨hreach', hhome⟩ := reaches_join hreach he h hpart hinner
  have hunder := forall₂_filter_isUnder hreach he h hpart hinner hread
  obtain ⟨found, hfound⟩ : ∃ found, ((Entry.folder inside).places.filter isDocumentPlace).mapM
      (fun l => readDocument t (pathBelow (Path.join folder part) l)) = .ok found := by
    refine exists_mapM_eq_ok fun l hl => ?_
    obtain ⟨d, -, hmem, hd⟩ := exists_right_of_mem hunder hl
    exact ⟨_, (readDocument_join hreach he h hpart hinner hmem hd).1⟩
  have hpairs := mapM_eq_ok_iff.mp hfound
  rw [readDocuments_eq (hreach'.entry?_eq.trans hhome) horderly]
  refine ⟨found, hfound, forall₂_of_left hpairs hunder ?_, fun hplain => ?_⟩
  · rintro l d' d hd' ⟨hl, hd⟩
    obtain ⟨hread', hpath⟩ := readDocument_join hreach he h hpart hinner hl hd
    obtain rfl := Except.ok.inj (hread'.symm.trans hd')
    have hproper := isFileName_of_mem_places horderly hl
    exact ⟨hpath ▸ Files.same_pathBelow hpart hnames hproper folder, rfl, rfl⟩
  · -- the part is spelled as its names, so the paths are the same
    rw [Files.join_eq_pathBelow hplain hnames] at hpairs
    refine Except.ok.inj ((mapM_eq_ok_iff.mpr hpairs).symm.trans (mapM_eq_ok_iff.mpr ?_))
    refine hunder.imp ?_
    rintro l d ⟨-, hd⟩
    rwa [Files.pathBelow_append] at hd

end

/-- **Loads of parts** of the custom documents, in a tree as a file system has it. -/
theorem filterLaw (h : t.root.IsOrderly) (root : Path) : FilterLaw t root where
  succeeds := by
    intro c filter e hc hentry he
    rw [ask_load_of_not_loaded hc]
    cases e with
    | folder entries =>
      obtain ⟨home, -, hhome⟩ := Tree.exists_reaches hentry he
      exact exists_readDocuments_iff hentry (h.get? hhome)
    | _ => contradiction
  listed := by
    intro c filter e documents hc hentry he hload
    rw [ask_load_of_not_loaded hc] at hload
    cases e with
    | folder entries =>
      obtain ⟨home, -, hhome⟩ := Tree.exists_reaches hentry he
      exact ⟨_, isListing_of_readDocuments hentry (h.get? hhome) hload⟩
    | _ => contradiction
  selected := by
    intro c c' part e folder all hc hc' hne hpart hentry hinner hfolder hload
    rw [ask_load_of_not_loaded hc] at hload
    rw [ask_load_of_not_loaded hc']
    have hjoin : documentFolder root (some part) =
        Path.join (documentFolder root none) part := by
      simp [documentFolder, hne]
    rw [hjoin]
    cases folder with
    | folder inside =>
      cases e with
      | folder entries =>
        obtain ⟨home, hreach, hhome⟩ := Tree.exists_reaches hentry rfl
        exact exists_readDocuments_join hreach hhome (h.get? hhome) hpart hinner hload
      | _ => cases hnames : namesOf part <;> simp [hnames, Entry.child?] at hinner
    | _ => contradiction
  absent := by
    intro c filter hc hfolder
    rw [ask_load_of_not_loaded hc, readDocuments_of_not_isFolder hfolder]
  empty := fun c => rfl

end

/-- Documents in and beside a folder, and files that are none. -/
def nestedEntries : List (String × Entry) :=
  [ ("b.ps1xml", .file (some "<View>3</View>")),
    ("b", .folder
      [ ("Y.PS1XML", .file (some "<View>2</View>")), (".ps1xml", .file none),
        ("X.ps1xml", .file (some "<View>1</View>")) ]),
    ("a.txt", .file none) ]

/-- A tree with these as its custom documents. -/
def nestedDocuments : Tree where
  root := .folder [("CustomFormats", .folder nestedEntries)]
  here := []

theorem isOrderly_nestedDocuments : nestedDocuments.root.IsOrderly := by
  have hproper : ∀ name ∈ ["CustomFormats", "b.ps1xml", "b", "a.txt", "Y.PS1XML", ".ps1xml",
      "X.ps1xml"], IsProperName name := by
    intro name hname
    simp only [List.mem_cons, List.not_mem_nil, or_false] at hname
    rcases hname with rfl | rfl | rfl | rfl | rfl | rfl | rfl
    all_goals exact ⟨⟨by decide, by decide, by decide⟩, by decide, by decide⟩
  simp only [List.forall_mem_cons] at hproper
  obtain ⟨h₁, h₂, h₃, h₄, h₅, h₆, h₇, -⟩ := hproper
  refine .folder (by decide) (by simpa using h₁) ?_
  simp only [List.forall_mem_singleton, nestedEntries]
  refine .folder (by decide) (by simpa using ⟨h₂, h₃, h₄⟩) ?_
  simp only [List.forall_mem_cons, List.not_mem_nil, false_imp_iff, implies_true, and_true]
  refine ⟨.file _, .folder (by decide) (by simpa using ⟨h₅, h₆, h₇⟩) ?_, .file _⟩
  simp only [List.forall_mem_cons, List.not_mem_nil, false_imp_iff, implies_true, and_true]
  exact ⟨.file _, .file _, .file _⟩

/-- A document of the tree, by its place below the folder of custom documents. -/
def nestedDocument (place view : String) : CustomDocument :=
  ⟨"./CustomFormats/" ++ place, [], ["<View>" ++ view ++ "</View>"]⟩

/-- A folder stands in front of the file whose name it begins. -/
theorem filesBelow_nestedDocuments :
    nestedDocuments.filesBelow "./CustomFormats" =
      ["./CustomFormats/a.txt", "./CustomFormats/b/.ps1xml", "./CustomFormats/b/X.ps1xml",
        "./CustomFormats/b/Y.PS1XML", "./CustomFormats/b.ps1xml"] := by
  have houter (x y z : List Path) :
      Text.sortByName [("b.ps1xml", x), ("b", y), ("a.txt", z)] =
        [("a.txt", z), ("b", y), ("b.ps1xml", x)] := by
    have hle : Text.le "b.ps1xml" "b" = false ∧ Text.le "b" "a.txt" = false := by decide +kernel
    simp [Text.sortByName, List.mergeSort, hle]
  have hinner (x y z : List Path) :
      Text.sortByName [("Y.PS1XML", x), (".ps1xml", y), ("X.ps1xml", z)] =
        [(".ps1xml", y), ("X.ps1xml", z), ("Y.PS1XML", x)] := by
    have hle : Text.le "Y.PS1XML" ".ps1xml" = false ∧ Text.le ".ps1xml" "X.ps1xml" = true ∧
        Text.le "Y.PS1XML" "X.ps1xml" = false := by decide +kernel
    simp [Text.sortByName, List.mergeSort, hle]
  have hentry : nestedDocuments.entry? "./CustomFormats" = some (.folder nestedEntries) := rfl
  rw [Tree.filesBelow, hentry]
  simp only [nestedEntries, Entry.files, Files.entriesFiles, houter, hinner]
  decide +kernel

theorem load_nestedDocuments :
    (ask (load nestedDocuments "." none) (ofManifest .blank)).1 =
      .ok [nestedDocument "b/X.ps1xml" "1", nestedDocument "b/Y.PS1XML" "2",
        nestedDocument "b.ps1xml" "3"] := by
  have hfolder : documentFolder "." none = "./CustomFormats" := by decide +kernel
  rw [ask_load_of_not_loaded rfl, readDocuments, hfolder, filesBelow_nestedDocuments]
  decide +kernel

theorem filterLaw_nestedDocuments :
    FilterLaw nestedDocuments "." ∧
      (ask (load nestedDocuments "." (some "b")) (ofManifest .blank)).1 =
        .ok [nestedDocument "b/X.ps1xml" "1", nestedDocument "b/Y.PS1XML" "2"] := by
  have hlaw := filterLaw isOrderly_nestedDocuments "."
  refine ⟨hlaw, ?_⟩
  obtain ⟨found, hfound, -, hplain⟩ := hlaw.selected (ofManifest .blank) (ofManifest .blank) "b"
    _ _ _ rfl rfl (by decide) (by decide +kernel) rfl rfl rfl load_nestedDocuments
  have hunder : [nestedDocument "b/X.ps1xml" "1", nestedDocument "b/Y.PS1XML" "2",
        nestedDocument "b.ps1xml" "3"].filter
        (fun d => Path.isUnder (documentFolder "." (some "b")) d.path) =
      [nestedDocument "b/X.ps1xml" "1", nestedDocument "b/Y.PS1XML" "2"] := by decide +kernel
  rw [hfound, hplain (by decide +kernel), hunder]

end Collection

end CmdletForge.Display
