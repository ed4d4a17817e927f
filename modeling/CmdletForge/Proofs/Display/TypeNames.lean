import CmdletForge.Proofs.Display.Parsing
import CmdletForge.Proofs.Lists.Positions
import CmdletForge.Proofs.Text.Trimming
import CmdletForge.Proofs.Xml.Insides

/-!
# CmdletForge.Proofs.Display.TypeNames

The types that a document names.

1. `distinct` are trimmed texts, without the empty ones, each once.  The types of a document are
   those of the runs of text behind its `TypeName` start tags (`typeNames_of_read`).
2. When no `TypeName` element has a child, these are the runs that stand in those elements
   (`typeRuns_of_flat`).
3. One run may not be all of the text of an element: a comment cuts it in two, and a CDATA section
   is no run.  An element whose letters stand in one run is `Unbroken`, and the runs of exactly
   these elements give the same types as their texts (`distinct_runs_iff`).
4. `namesLaw` is what this means for a well-formed document.
-/

namespace CmdletForge.Display.CustomDocument

open Xml (Event Piece Content Flat)

/-! ## Distinct texts -/

/-- The texts without the blanks around them, but for the empty ones. -/
def trimmed (texts : List String) : List String :=
  (texts.map Text.trim).filter fun text => !text.isEmpty

/-- The trimmed texts, each once, in the order of their first occurrences. -/
def distinct (texts : List String) : List String := (trimmed texts).eraseDups

theorem trim_isEmpty_iff {text : String} :
    (Text.trim text).isEmpty = true ↔ Text.IsBlank text.toList := by
  rw [String.isEmpty_iff, Text.trim, ← Text.trimChars_eq_nil_iff, ← String.toList_eq_nil_iff,
    String.toList_ofList]

theorem trimmed_append (xs ys : List String) : trimmed (xs ++ ys) = trimmed xs ++ trimmed ys := by
  rw [trimmed, List.map_append, List.filter_append, trimmed, trimmed]

theorem trimmed_flatMap {α : Type} (f : α → List String) (xs : List α) :
    trimmed (xs.flatMap f) = xs.flatMap fun x => trimmed (f x) := by
  induction xs with
  | nil => rfl
  | cons x xs ih => rw [List.flatMap_cons, trimmed_append, ih, List.flatMap_cons]

theorem trimmed_singleton (text : String) :
    trimmed [text] = if (Text.trim text).isEmpty then [] else [Text.trim text] := by
  by_cases h : (Text.trim text).isEmpty = true <;> simp [trimmed, h]

/-- Of blank texts, nothing is left. -/
theorem trimmed_eq_nil {texts : List String} (h : ∀ text ∈ texts, Text.IsBlank text.toList) :
    trimmed texts = [] := by
  rw [trimmed, List.filter_eq_nil_iff, List.forall_mem_map]
  intro text htext
  rw [trim_isEmpty_iff.mpr (h text htext)]
  exact Bool.false_ne_true

/-- The trimmed names are those of the texts that are not blank. -/
theorem mem_trimmed {texts : List String} {name : String} :
    name ∈ trimmed texts ↔ ∃ text ∈ texts, Text.trim text = name ∧ ¬ Text.IsBlank text.toList := by
  simp only [trimmed, List.mem_filter, List.mem_map]
  constructor
  · rintro ⟨⟨text, htext, rfl⟩, hempty⟩
    exact ⟨text, htext, rfl, by simpa [← trim_isEmpty_iff] using hempty⟩
  · rintro ⟨text, htext, rfl, hblank⟩
    exact ⟨⟨text, htext, rfl⟩, by simpa [← trim_isEmpty_iff] using hblank⟩

/-- One more text. -/
theorem distinct_append_singleton (texts : List String) (text : String) :
    distinct (texts ++ [text]) =
      if (Text.trim text).isEmpty ∨ (distinct texts).contains (Text.trim text) then distinct texts
      else distinct texts ++ [Text.trim text] := by
  rw [distinct, trimmed_append, trimmed_singleton]
  by_cases hempty : (Text.trim text).isEmpty = true
  · rw [if_pos hempty, if_pos (.inl hempty), List.append_nil, distinct]
  · have hmem : Text.trim text ∈ trimmed texts ↔
        (distinct texts).contains (Text.trim text) = true := by
      rw [List.contains_iff_mem, distinct, List.mem_eraseDups]
    rw [if_neg hempty, eraseDups_append_singleton, ← distinct]
    simp only [hmem, hempty, Bool.false_eq_true, false_or]

/-! ## Reading type names -/

/-- The runs of text behind the start tags of type names, up to the next end tag of one; `inType`
tells whether a type name is open. -/
def typeRuns (inType : Bool) : List Event → List String
  | [] => []
  | e :: events => (if inType then e.run?.toList else []) ++ typeRuns (inTypeBehind inType e) events

section
variable {text : List Char} {k k' : Capture} {p : Piece} {ps : List Piece} {seen : List String}

/-- One more name keeps the names distinct and in the order of their first occurrence. -/
theorem addName_of_distinct (hk : k.typeNames = distinct seen) (cs : List Char) :
    (k.addName (String.ofList (Text.trimChars cs))).typeNames =
      distinct (seen ++ [String.ofList cs]) := by
  have htrim : Text.trim (String.ofList cs) = String.ofList (Text.trimChars cs) := by
    rw [Text.trim, String.toList_ofList]
  rw [distinct_append_singleton, htrim, ← hk, Capture.addName]
  split <;> rfl

/-- **One piece** adds its run of text to the type names, when a type name is open. -/
theorem typeNames_of_step (hstep : Capture.step text k p = .ok k')
    (hk : k.typeNames = distinct seen) :
    k'.typeNames = distinct (seen ++ if k.inTypeName then p.event.run?.toList else []) := by
  have hnone (hrun : p.event.run? = none) :
      distinct seen = distinct (seen ++ if k.inTypeName then p.event.run?.toList else []) := by
    simp [hrun]
  cases Capture.stepCase_of_step hstep with
  | opensType h | opensView h => exact hk.trans (hnone (Event.Opens.run?_eq_none h))
  | closesType h | endsView h | capturesView h =>
    exact hk.trans (hnone (by rw [show p.event = _ from h]; rfl))
  | @names raw cs h hin hdecoded =>
    have hrun : p.event.run? = some (String.ofList cs) := by
      rw [h, Event.run?, Xml.decoded, hdecoded]
      rfl
    rw [addName_of_distinct hk, if_pos hin, hrun]
    rfl
  | keeps _ _ htext =>
    cases hevent : p.event with
    | text raw => simp [htext raw hevent, hk]
    | _ => exact hk.trans (by simp [Event.run?])

/-- **Several pieces** add the runs behind the start tags of type names. -/
theorem typeNames_of_read (h : k.read text ps = .ok k') (hk : k.typeNames = distinct seen) :
    k'.typeNames = distinct (seen ++ typeRuns k.inTypeName (ps.map (·.event))) := by
  induction ps generalizing k seen with
  | nil =>
    obtain rfl := Except.ok.inj h
    simpa [typeRuns] using hk
  | cons p ps ih =>
    rw [← List.singleton_append] at h
    obtain ⟨k₁, hp, hps⟩ := Capture.exists_of_read_append h
    rw [Capture.read_singleton] at hp
    rw [ih hps (typeNames_of_step hp hk), Capture.inTypeName_of_step hp, List.map_cons, typeRuns,
      List.append_assoc]

end

/-! ## Type names without children -/

section
variable {e : Event} {inside : List Event}

/-- What is no tag leaves a type name open. -/
theorem inTypeBehind_of_not_isTag (he : ¬ e.IsTag) (inType : Bool) :
    inTypeBehind inType e = inType := by
  cases e with
  | start | empty | finish => exact absurd trivial he
  | _ => rfl

/-- Where no type name is open, only a start tag of one opens it. -/
theorem inTypeBehind_of_not_opens (he : ¬ e.Opens typeElement) : inTypeBehind false e = false := by
  by_cases hcloses : e.Closes typeElement
  · exact inTypeBehind_of_closes hcloses false
  · exact inTypeBehind_of_ne he hcloses false

/-- The runs of a type name element, and of what follows it. -/
theorem typeRuns_inside (hinside : ∀ e ∈ inside, ¬ e.IsTag) (rest : List Event) :
    typeRuns true (inside ++ .finish typeElement :: rest) =
      Xml.runs inside ++ typeRuns false rest := by
  induction inside with
  | nil => simp [typeRuns, inTypeBehind, Event.run?, Xml.runs]
  | cons e inside ih =>
    rw [List.forall_mem_cons] at hinside
    rw [List.cons_append, typeRuns, inTypeBehind_of_not_isTag hinside.1, ih hinside.2, if_pos rfl,
      ← List.append_assoc]
    cases hrun : e.run? <;> simp [Xml.runs, hrun]

/-- A type name element decodes when its events do. -/
theorem typesDecode_inside (hinside : ∀ e ∈ inside, ¬ e.IsTag) (rest : List Event) :
    TypesDecode true (inside ++ .finish typeElement :: rest) ↔
      (∀ e ∈ inside, e.Decodes) ∧ TypesDecode false rest := by
  induction inside with
  | nil => simp [TypesDecode, inTypeBehind, Event.Decodes]
  | cons e inside ih =>
    rw [List.forall_mem_cons] at hinside
    rw [List.cons_append, TypesDecode, inTypeBehind_of_not_isTag hinside.1, ih hinside.2,
      List.forall_mem_cons]
    simp [and_assoc]

end

section
variable {events : List Event} {insides : List (List Event)} (h : Flat typeElement events insides)
include h

/-- **In elements without children**, the runs behind the start tags are those that stand in the
elements. -/
theorem typeRuns_of_flat : typeRuns false events = insides.flatMap Xml.runs := by
  induction h with
  | nil => rfl
  | @empty e rest insides he hrest ih =>
    cases e with
    | empty content => simpa [typeRuns, inTypeBehind, Xml.runs] using ih
    | _ => exact he.elim
  | element he hinside hrest ih =>
    rw [typeRuns, inTypeBehind_of_opens he, typeRuns_inside hinside, ih]
    rfl
  | other hopens hempty hrest ih =>
    rw [typeRuns, inTypeBehind_of_not_opens hopens, ih]
    rfl

/-- Type names decode when the events inside of them do. -/
theorem typesDecode_of_flat :
    TypesDecode false events ↔ ∀ inside ∈ insides, ∀ e ∈ inside, e.Decodes := by
  induction h with
  | nil => simp [TypesDecode]
  | @empty e rest insides he hrest ih =>
    cases e with
    | empty content => simpa [TypesDecode, inTypeBehind] using ih
    | _ => exact he.elim
  | element he hinside hrest ih =>
    rw [TypesDecode, inTypeBehind_of_opens he, typesDecode_inside hinside, ih,
      List.forall_mem_cons]
    simp
  | other hopens hempty hrest ih =>
    rw [TypesDecode, inTypeBehind_of_not_opens hopens, ih]
    simp

end

/-! ## Unbroken texts -/

/-- One run of text holds all the letters that stand between two tags, or there are none. -/
def Unbroken (inside : List Event) : Prop :=
  Text.IsBlank (Xml.characters inside) ∨
    ∃ front raw back, inside = front ++ .text raw :: back ∧
      Text.IsBlank (Xml.characters front) ∧ Text.IsBlank (Xml.characters back)

/-- The runs of a blank text are blank. -/
theorem isBlank_of_mem_runs {inside : List Event} (h : Text.IsBlank (Xml.characters inside)) :
    ∀ run ∈ Xml.runs inside, Text.IsBlank run.toList := by
  intro run hrun c hc
  obtain ⟨e, he, hrun⟩ := List.mem_filterMap.mp hrun
  cases e with
  | text raw =>
    obtain rfl := Option.some.inj hrun
    rw [String.toList_ofList] at hc
    exact h c (List.mem_flatMap.mpr ⟨_, he, hc⟩)
  | _ => contradiction

/-- The run that holds all the letters is the text, but for blanks around it. -/
theorem Unbroken.trimmed_runs {inside : List Event} (h : Unbroken inside) :
    trimmed (Xml.runs inside) = trimmed [String.ofList (Xml.characters inside)] := by
  rcases h with hblank | ⟨front, raw, back, rfl, hfront, hback⟩
  · have htext : ∀ text ∈ [String.ofList (Xml.characters inside)], Text.IsBlank text.toList := by
      simpa using hblank
    rw [trimmed_eq_nil (isBlank_of_mem_runs hblank), trimmed_eq_nil htext]
  · have hruns : Xml.runs (front ++ .text raw :: back) =
        Xml.runs front ++ [String.ofList (Xml.decoded raw)] ++ Xml.runs back := by
      simp [Xml.runs, Event.run?]
    have hcharacters : Xml.characters (front ++ .text raw :: back) =
        Xml.characters front ++ Xml.decoded raw ++ Xml.characters back := by
      rw [Xml.characters_append, Xml.characters_cons, List.append_assoc]
      rfl
    have htrim : Text.trim (String.ofList (Xml.decoded raw)) =
        Text.trim (String.ofList (Xml.characters (front ++ .text raw :: back))) := by
      rw [hcharacters, Text.trim, Text.trim, String.toList_ofList, String.toList_ofList,
        Text.trimChars_append hfront _ hback]
    rw [hruns, trimmed_append, trimmed_append, trimmed_eq_nil (isBlank_of_mem_runs hfront),
      trimmed_eq_nil (isBlank_of_mem_runs hback), List.nil_append, List.append_nil,
      trimmed_singleton, trimmed_singleton, htrim]

/-- **When the runs of an element give the same types as its text**: when its letters stand in one
run. -/
theorem distinct_runs_iff (inside : List Event) :
    distinct (Xml.runs inside) = distinct [String.ofList (Xml.characters inside)] ↔
      Unbroken inside := by
  constructor
  · intro h
    by_cases hblank : Text.IsBlank (Xml.characters inside)
    · exact .inl hblank
    -- a run that gives the type has as many letters as the whole text
    have hname : Text.trim (String.ofList (Xml.characters inside)) ∈ trimmed (Xml.runs inside) := by
      rw [← List.mem_eraseDups, ← distinct, h, distinct, List.mem_eraseDups, mem_trimmed]
      exact ⟨_, List.mem_singleton_self _, rfl, by rwa [String.toList_ofList]⟩
    obtain ⟨run, hrun, htrim, -⟩ := mem_trimmed.mp hname
    obtain ⟨e, he, hrun⟩ := List.mem_filterMap.mp hrun
    cases e with
    | text raw =>
      obtain rfl := Option.some.inj hrun
      obtain ⟨front, back, rfl⟩ := List.append_of_mem he
      rw [Text.trim, Text.trim, String.ofList_inj, String.toList_ofList,
        String.toList_ofList] at htrim
      have hletters := congrArg Text.letters htrim
      have hrun : (Event.text raw).characters = Xml.decoded raw := rfl
      rw [Text.letters_trimChars, Text.letters_trimChars, Xml.characters_append,
        Xml.characters_cons, hrun, Text.letters_append, Text.letters_append] at hletters
      refine .inr ⟨front, raw, back, rfl, ?_, ?_⟩
      · exact Text.letters_eq_zero_iff.mp (by omega)
      · exact Text.letters_eq_zero_iff.mp (by omega)
    | _ => contradiction
  · intro h
    rw [distinct, h.trimmed_runs, distinct]

/-! ## Documents -/

/-- What the types of a document are; `insides` is what stands in its `TypeName` elements. -/
structure NamesLaw (text : String) (insides : List (List Event)) (names : List String) : Prop where
  /-- The types are the runs of text in these elements. -/
  runs : names = distinct (insides.flatMap Xml.runs)
  /-- The texts of these elements are the characters that stand in them, those of CDATA sections
  included. -/
  texts : (Xml.elements "TypeName" text).map Content.characters =
    insides.map fun inside => String.ofList (Xml.characters inside)
  /-- An element gives the type that its text is exactly when one run holds all the letters. -/
  unbroken : ∀ inside ∈ insides,
    distinct (Xml.runs inside) = distinct [String.ofList (Xml.characters inside)] ↔ Unbroken inside
  /-- When this holds of all elements, the types are their texts. -/
  contents : (∀ inside ∈ insides, Unbroken inside) →
    names = distinct ((Xml.elements "TypeName" text).map Content.characters)

/-- **The types of a well-formed document** that has no byte order mark, when no `TypeName` element
has a child.  It can be parsed when the entities in these elements can be read. -/
theorem namesLaw {text : String} {insides : List (List Event)} (hform : Xml.IsWellFormed text)
    (hmark : Xml.dropMark text.toList = text.toList)
    (hflat : Flat typeElement (Xml.events text) insides) (path : Path) :
    ((∃ d, parse path text = .ok d) ↔ ∀ inside ∈ insides, ∀ e ∈ inside, e.Decodes) ∧
      ∀ d, parse path text = .ok d → NamesLaw text insides d.typeNames := by
  have hsucceeds : (∃ d, parse path text = .ok d) ↔ ∀ inside ∈ insides, ∀ e ∈ inside, e.Decodes :=
    (exists_parse_iff hform hmark path).trans (typesDecode_of_flat hflat)
  refine ⟨hsucceeds, fun d hparse => ?_⟩
  have hdecodes := hsucceeds.mp ⟨d, hparse⟩
  obtain ⟨k, hcapture, rfl⟩ := parse_eq_ok_iff.mp hparse
  obtain ⟨hread, -, -⟩ := capture_eq_ok_iff.mp hcapture
  have hruns : k.typeNames = distinct (insides.flatMap Xml.runs) := by
    have hblank : Capture.blank.typeNames = distinct [] := rfl
    have hnames := typeNames_of_read hread hblank
    rw [List.nil_append] at hnames
    rw [hnames, ← typeRuns_of_flat hflat]
    rfl
  have htexts : (Xml.elements "TypeName" text).map Content.characters =
      insides.map fun inside => String.ofList (Xml.characters inside) :=
    hflat.map_characters hdecodes
  refine ⟨hruns, htexts, fun inside _ => distinct_runs_iff inside, ?_⟩
  intro hunbroken
  have hsame : insides.flatMap (fun inside => trimmed (Xml.runs inside)) =
      insides.flatMap fun inside => trimmed [String.ofList (Xml.characters inside)] :=
    List.flatMap_congr fun inside hinside => (hunbroken inside hinside).trimmed_runs
  show k.typeNames = _
  rw [hruns, htexts, distinct, trimmed_flatMap, hsame, ← trimmed_flatMap, ← List.map_eq_flatMap,
    distinct]

/-- A document with a type that is written plainly, one between blanks and behind a comment, and an
empty one; outside of them is an entity that cannot be read. -/
def plainText : String :=
  "<View>&v;<TypeName>A.B</TypeName><TypeName> <!-- C --> D&#46;E </TypeName><TypeName/></View>"

/-- What stands in the elements of these types. -/
def plainInsides : List (List Event) :=
  [[.text "A.B".toList], [.text " ".toList, .aside, .text " D&#46;E ".toList], []]

theorem namesLaw_plainText :
    (∃ d, parse "B.ps1xml" plainText = .ok d) ∧
      ∀ d, parse "B.ps1xml" plainText = .ok d → NamesLaw plainText plainInsides d.typeNames := by
  have hform : Xml.IsWellFormed plainText := by decide +kernel
  have hevents : Xml.events plainText =
      [.start "View".toList, .text "&v;".toList, .start "TypeName".toList, .text "A.B".toList,
        .finish typeElement, .start "TypeName".toList, .text " ".toList, .aside,
        .text " D&#46;E ".toList, .finish typeElement, .empty "TypeName".toList,
        .finish viewElement] := by
    decide +kernel
  have hflat : Flat typeElement (Xml.events plainText) plainInsides := by
    rw [hevents]
    refine .other (by decide) (by decide) (.other (by decide) (by decide) ?_)
    refine @Flat.element _ _ [.text "A.B".toList] _ _ (by decide) (by decide) ?_
    refine @Flat.element _ _ [.text " ".toList, .aside, .text " D&#46;E ".toList] _ _ (by decide)
      (by decide) ?_
    exact .empty (by decide) (.other (by decide) (by decide) .nil)
  obtain ⟨hsucceeds, hnames⟩ := namesLaw hform (by decide +kernel) hflat "B.ps1xml"
  exact ⟨hsucceeds.mpr (by decide +kernel), hnames⟩

/-- **A comment in a name, or a name in a CDATA section, changes the types**: three documents whose
`TypeName` elements hold the same text name three different lists of types. -/
theorem typeNames_of_sameTexts :
    (∀ text ∈ ["<View><TypeName>A.B</TypeName></View>",
        "<View><TypeName>A.<!-- C -->B</TypeName></View>",
        "<View><TypeName><![CDATA[A.B]]></TypeName></View>"],
      Xml.IsWellFormed text ∧ (Xml.elements "TypeName" text).map Content.characters = ["A.B"]) ∧
    (parse "B.ps1xml" "<View><TypeName>A.B</TypeName></View>").map typeNames = .ok ["A.B"] ∧
    (parse "B.ps1xml" "<View><TypeName>A.<!-- C -->B</TypeName></View>").map typeNames =
      .ok ["A.", "B"] ∧
    (parse "B.ps1xml" "<View><TypeName><![CDATA[A.B]]></TypeName></View>").map typeNames =
      .ok [] := by
  decide +kernel

end CmdletForge.Display.CustomDocument
