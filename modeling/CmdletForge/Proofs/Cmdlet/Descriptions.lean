import CmdletForge.Proofs.Cmdlet.Emissions
import CmdletForge.Proofs.Source.PhysicalLines
import CmdletForge.Proofs.Text.Trimming

/-!
# CmdletForge.Proofs.Cmdlet.Descriptions

The comment that says what a parameter is for, as a reader of the source finds it.

1. A summary stands in the comment of its parameter and nowhere else, and only the default emitter
   takes it from the description of the property (`Emitter.code_declarations`,
   `Emitter.isPlain_of_mem_declarations`).
2. Each line of a summary stands behind slashes up to the first character in it that ends a line
   for the reader; what follows begins a line as it is (`Declaration.commentLines_eq`).  So the
   comment is one throughout exactly when all that follows such characters brings slashes of its own
   (`Declaration.staysInside_iff`).
3. A summary stays inside of its comment when it is *plain*: no such character is left in a line of
   it, without the blanks at its ends.  A summary that is not, and has no slash, does not stay there
   (`Declaration.staysInside_of_isPlain`, `Declaration.isPlain_of_staysInside`).
-/

namespace CmdletForge.Cmdlet

open Source (IsComment Step forall_isComment_inFront_iff inFront indentation lineAt newLines
  physicalLines)
open Source.Step (IsEven isEven_line levelAt textAt)
open Text (forall_mem_toList forall_mem_toList_append)

/-! ## Lines of a summary -/

/-- The lines that a text takes behind slashes. -/
def slashedLines (level : Nat) (s : String) : List (List Char) :=
  inFront (indentation level ++ "/// ").toList (physicalLines (s.toList ++ ['\n']))

/-- Those of them that have no slashes in front of them. -/
def bareLines (s : String) : List (List Char) := (physicalLines (s.toList ++ ['\n'])).tail

/-- Nothing in a line of a summary ends a line, without the blanks at its ends. -/
def IsPlain (summary : String) : Prop :=
  ∀ line ∈ Text.lines summary, ∀ c ∈ (Text.trim line).toList, c ∉ newLines

/-- A text in which line feeds end the lines, and nothing else does, is plain. -/
theorem isPlain_of_lineFeeds {s : String} (h : ∀ c ∈ s.toList, c ∈ newLines → c = '\n') :
    IsPlain s := by
  intro line hline c hc hends
  obtain ⟨hmem, hfeed⟩ := Text.mem_of_mem_line hline hc
  exact hfeed (h c hmem hends)

/-- Indentation does not decide whether the lines of a comment are comments. -/
theorem forall_slashedLines_iff (level : Nat) (s : String) :
    (∀ l ∈ slashedLines level s, IsComment l) ↔ ∀ l ∈ bareLines s, IsComment l :=
  forall_isComment_inFront_iff level _

/-- A text without line ends has no line that stands bare. -/
theorem bareLines_eq_nil {s : String} (h : ∀ c ∈ s.toList, c ∉ newLines) : bareLines s = [] := by
  by_cases hs : s.toList = []
  · rw [bareLines, hs]
    rfl
  · rw [bareLines, Source.physicalLines_front h hs, Source.tail_inFront]
    rfl

/-- Every character that ends a line is blank. -/
theorem isBlank_of_mem_newLines (h : c ∈ newLines) : Text.isBlank c = true := by
  have hall : newLines.all Text.isBlank = true := by decide +kernel
  exact List.all_eq_true.mp hall c h

/-- What is left of a line begins another one at each character that ends a line. -/
theorem bareLines_trim_ne_nil {line : String} (h : ∃ c ∈ (Text.trim line).toList, c ∈ newLines) :
    bareLines (Text.trim line) ≠ [] := by
  refine Source.tail_physicalLines_ne_nil h fun c hlast hline => ?_
  rw [Text.trim, String.toList_ofList] at hlast
  have hblank := Text.not_isBlank_of_getLast?_trimChars hlast
  rw [isBlank_of_mem_newLines hline] at hblank
  contradiction

/-- A comment takes its slashes from the text. -/
theorem slash_mem_of_isComment {s : String} (hl : l ∈ bareLines s) (h : IsComment l) :
    '/' ∈ s.toList := by
  have hslash : '/' ∈ Text.trimStart l := h.subset List.mem_cons_self
  have hmem : '/' ∈ l := (List.dropWhile_sublist Text.isBlank).subset hslash
  have hsource := Source.mem_of_mem_physicalLines (List.mem_of_mem_tail hl) hmem
  simpa using hsource

/-! ## Comments -/

namespace Declaration

/-- What stands behind the slashes of a comment. -/
def commentTexts (d : Declaration) : List String :=
  ["<summary>", "<para>"] ++ (Text.lines d.summary).map Text.trim ++ ["</para>", "</summary>"]

/-- What a declaration has behind its comment. -/
def code (d : Declaration) : List Step :=
  d.parameterAttributes ++ d.constantsAttribute ++ d.aliasAttribute ++
    [.line [.property d.typeName d.name]]

variable (d : Declaration) (level : Nat)

theorem comment_eq : d.comment = d.commentTexts.map fun s => .plain ("/// " ++ s) := by
  simp [comment, commentTexts, Function.comp_def]

/-- The code of a declaration closes what it opens. -/
theorem isEven_code : IsEven d.code :=
  ((d.isEven_parameterAttributes.append d.isEven_constantsAttribute).append
    d.isEven_aliasAttribute).append (isEven_line _)

/-- A declaration is its comment and its code, in a region. -/
theorem textAt_steps :
    textAt level d.steps =
      lineAt level ("#region " ++ ("Parameter " ++ d.name)) ++ (textAt level d.comment ++
        (textAt level d.code ++ lineAt level "#endregion")) := by
  have hbody : d.comment ++ d.parameterAttributes ++ d.constantsAttribute ++ d.aliasAttribute ++
      [.line [.property d.typeName d.name]] = d.comment ++ d.code := by
    simp only [code, List.append_assoc]
  have heven : levelAt level (d.comment ++ d.code) = level :=
    (d.isEven_comment.append d.isEven_code) level
  rw [steps, hbody, Step.textAt_region_cons, heven, Step.textAt_append, d.isEven_comment level,
    Step.textAt_nil, String.append_empty, String.append_assoc]

def commentLines (d : Declaration) (level : Nat) : List (List Char) :=
  physicalLines (textAt level d.comment).toList

/-- **The texts of a comment stand behind slashes**, each up to the first character in it that ends
a line. -/
theorem commentLines_eq :
    d.commentLines level = d.commentTexts.flatMap (slashedLines level) := by
  rw [commentLines, comment_eq, Step.physicalLines_textAt_map_plain]
  simp only [Source.physicalLines_slashes]
  rfl

/-- The lines that are written for a declaration. -/
theorem physicalLines_steps :
    physicalLines (textAt level d.steps).toList =
      physicalLines (lineAt level ("#region " ++ ("Parameter " ++ d.name))).toList ++
        (d.commentLines level ++
          (physicalLines (textAt level d.code).toList ++
            physicalLines (lineAt level "#endregion").toList)) := by
  rw [textAt_steps, Source.physicalLines_append_of_endsLine (Source.endsLine_lineAt level _),
    Source.physicalLines_append_of_endsLine (Step.endsLine_textAt level _),
    Source.physicalLines_append_of_endsLine (Step.endsLine_textAt level _)]
  rfl

/-- All lines of the comment are comments. -/
def StaysInside (d : Declaration) (level : Nat) : Prop :=
  ∀ l ∈ d.commentLines level, IsComment l

/-- **A summary stays inside of its comment** exactly when all that has no slashes in front of it
brings its own. -/
theorem staysInside_iff :
    d.StaysInside level ↔
      ∀ line ∈ Text.lines d.summary, ∀ l ∈ bareLines (Text.trim line), IsComment l := by
  have hfixed : ∀ s ∈ ["<summary>", "<para>", "</para>", "</summary>"], bareLines s = [] := by
    decide +kernel
  have hall : d.StaysInside level ↔
      ∀ s ∈ d.commentTexts, ∀ l ∈ bareLines s, IsComment l := by
    simp only [StaysInside, commentLines_eq, List.forall_mem_flatMap,
      forall_slashedLines_iff]
  rw [hall, commentTexts]
  simp only [List.forall_mem_append, List.forall_mem_map]
  simp [hfixed]

/-- A plain summary stays inside its comment. -/
theorem staysInside_of_isPlain (h : IsPlain d.summary) : d.StaysInside level := by
  rw [staysInside_iff]
  intro line hline l hl
  rw [bareLines_eq_nil (h line hline)] at hl
  contradiction

/-- A summary without slashes has to be plain. -/
theorem isPlain_of_staysInside (h : d.StaysInside level)
    (hslash : '/' ∉ d.summary.toList) : IsPlain d.summary := by
  rw [staysInside_iff] at h
  intro line hline c hc hends
  obtain ⟨l, hl⟩ := List.exists_mem_of_ne_nil _ (bareLines_trim_ne_nil ⟨c, hc, hends⟩)
  exact hslash (Text.mem_of_mem_line hline (slash_mem_of_isComment hl (h line hline l hl))).1

end Declaration

/-! ## Emitters -/

namespace Emitter

variable (e : Emitter) (s : Service) (p : Property) (c : Option Customization)

/-- The code of the parameters does not depend on the description. -/
theorem code_declarations (description : Option String) :
    (e.declarations s { p with description } c).map (fun d => (d.name, d.code)) =
      (e.declarations s p c).map fun d => (d.name, d.code) := by
  cases e <;> rfl

/-- The default emitter takes the summary from the property. -/
theorem summary_of_mem_default (h : d ∈ Emitter.default.declarations s p c) :
    d.summary = defaultSummary p := by
  rw [declarations, List.mem_singleton] at h
  rw [h]

/-- What the other emitters say is plain. -/
theorem isPlain_of_mem_declarations {e : Emitter} (he : e ≠ .default)
    (h : d ∈ e.declarations s p c) : IsPlain d.summary := by
  -- These summaries are written out, and nothing but line feeds ends their lines.
  have hlineFeeds : ∀ c ∈ d.summary.toList, c ∈ newLines → c = '\n' := by
    cases e with
    | default => contradiction
    | httpVerb | protocol =>
      rw [declarations, List.mem_singleton] at h
      rw [h, textDeclaration]
      exact forall_mem_toList rfl (by decide +kernel)
    | accelerate | dualstack =>
      rw [declarations, List.mem_singleton] at h
      rw [h]
      exact forall_mem_toList_append (forall_mem_toList rfl (by decide +kernel))
        (forall_mem_toList rfl (by decide +kernel))
    | storageClass =>
      obtain ⟨k, -, rfl⟩ := List.mem_map.mp h
      cases k <;>
        exact forall_mem_toList_append (forall_mem_toList rfl (by decide +kernel))
          (forall_mem_toList rfl (by decide +kernel))
  exact isPlain_of_lineFeeds hlineFeeds

end Emitter

/-! ## What is written -/

/-- Where the description of a property stands in what is written for its parameters. -/
structure DescriptionLaw (e : Emitter) (s : Service) (p : Property) (c : Option Customization)
    (w : Source.Writer) : Prop where
  /-- What is put behind the text has the lines of each declaration.  The comment stands between
  the line of the region and the code... -/
  written : ∃ text, e.writeParameters s p c w = ⟨w.text ++ text, w.level⟩ ∧
    physicalLines text.toList = (e.declarations s p c).flatMap fun d =>
      physicalLines (lineAt w.level ("#region " ++ ("Parameter " ++ d.name))).toList ++
        (d.commentLines w.level ++
          (physicalLines (textAt w.level d.code).toList ++
            physicalLines (lineAt w.level "#endregion").toList))
  /-- ...and each of its texts is behind slashes. -/
  comment : ∀ d ∈ e.declarations s p c,
    d.commentLines w.level = d.commentTexts.flatMap (slashedLines w.level)
  /-- The names and the code are the same whatever the description. -/
  code : ∀ description, (e.declarations s { p with description } c).map
      (fun d => (d.name, d.code)) = (e.declarations s p c).map fun d => (d.name, d.code)
  /-- All lines of the comments are comments exactly when what follows inside of a line of the
  description brings slashes of its own.  Only the default emitter writes the description. -/
  inside_iff : (∀ d ∈ e.declarations s p c, d.StaysInside w.level) ↔
    (e = .default →
      ∀ line ∈ Text.lines (defaultSummary p), ∀ l ∈ bareLines (Text.trim line), IsComment l)
  /-- A plain description stays inside of its comment... -/
  inside : IsPlain (defaultSummary p) → ∀ d ∈ e.declarations s p c, d.StaysInside w.level
  /-- ...and without a slash in it no other one does. -/
  outside : e = .default → '/' ∉ (defaultSummary p).toList → ¬IsPlain (defaultSummary p) →
    ∃ d ∈ e.declarations s p c, ¬d.StaysInside w.level

/-- **What becomes of a description.** -/
theorem descriptionLaw (e : Emitter) (s : Service) (p : Property) (c : Option Customization)
    (w : Source.Writer) : DescriptionLaw e s p c w := by
  have hdefault : ∀ d ∈ Emitter.default.declarations s p c, d.summary = defaultSummary p :=
    fun d hd => Emitter.summary_of_mem_default s p c hd
  have hother : e ≠ .default → ∀ d ∈ e.declarations s p c, d.StaysInside w.level :=
    fun he d hd =>
      d.staysInside_of_isPlain w.level (Emitter.isPlain_of_mem_declarations s p c he hd)
  exact
    { written := ⟨_, e.writeParameters_eq s p c w, by
        rw [Step.physicalLines_textAt_flatMap fun d _ => d.isEven_steps]
        simp only [Declaration.physicalLines_steps]⟩
      comment := fun d _ => d.commentLines_eq w.level
      code := e.code_declarations s p c
      inside_iff := by
        constructor
        · rintro h rfl
          obtain ⟨d, hd⟩ : ∃ d, d ∈ Emitter.default.declarations s p c := ⟨_, List.mem_cons_self⟩
          rw [← hdefault d hd, ← d.staysInside_iff w.level]
          exact h d hd
        · intro h
          by_cases he : e = .default
          · subst he
            intro d hd
            rw [d.staysInside_iff, hdefault d hd]
            exact h rfl
          · exact hother he
      inside := fun hplain d hd => by
        by_cases he : e = .default
        · subst he
          exact d.staysInside_of_isPlain w.level (by rwa [hdefault d hd])
        · exact hother he d hd
      outside := by
        rintro rfl hslash hplain
        obtain ⟨d, hd⟩ : ∃ d, d ∈ Emitter.default.declarations s p c := ⟨_, List.mem_cons_self⟩
        refine ⟨d, hd, fun hinside => hplain ?_⟩
        rw [← hdefault d hd] at hslash ⊢
        exact d.isPlain_of_staysInside w.level hinside hslash }

/-- A carriage return without a line feed behind it begins a line that has no slashes, and what
follows it is code. -/
theorem not_isComment_return :
    physicalLines (Emitter.default.writeParameters
        ⟨"S3", "Amazon.S3", "IAmazonS3", none, "3.7.0", [], [], []⟩
        ⟨"Key", "System.String", false, none, some "The key.\rpublic int Extra;"⟩ none
        (.start 0)).text.toList =
      ["#region Parameter Key", "/// <summary>", "/// <para>", "/// The key.", "public int Extra;",
        "/// </para>", "/// </summary>",
        "[System.Management.Automation.Parameter(ValueFromPipelineByPropertyName = true)]",
        "public System.String Key { get; set; }", "#endregion"].map String.toList ∧
    ¬IsComment "public int Extra;".toList := by
  rw [Emitter.writeParameters_eq, Source.Writer.start, String.empty_append,
    Step.physicalLines_textAt_flatMap fun d _ => d.isEven_steps]
  simp only [Declaration.physicalLines_steps]
  decide +kernel

end CmdletForge.Cmdlet
