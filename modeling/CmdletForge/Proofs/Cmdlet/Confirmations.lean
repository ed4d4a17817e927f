import CmdletForge.Proofs.Cmdlet.Places
import CmdletForge.Proofs.Source.Arrays

/-!
# CmdletForge.Proofs.Cmdlet.Confirmations

What a cmdlet asks before it changes something, read back from its source.

1. The method that binds the values begins with the names of the values to confirm, as literals
   in an array, and with the question whether to go on, which names the action
   (`textAt_processMethod`).
2. Whatever the names are, a reader of literals finds them in the method, each in its place, and
   the action behind them (`confirmationLaw`).
-/

namespace CmdletForge.Cmdlet

open Source (Code IsLineEnd Step Within indentation lineAt literal readLiteral readLiterals)
open Source.Step (textAt)

/-! ## The method that asks -/

/-- How the method begins that asks before it goes on, up to the names in its array... -/
def methodFront : String :=
  "        protected override void ProcessRecord()\n        \x7b\n" ++
    "            base.ProcessRecord();\n\n            var resourceIdentifiersText = " ++
      "FormatParameterValuesForConfirmationMsg(new[] \x7b "

/-- ...what stands between the names and the action... -/
def methodMiddle : String :=
  " \x7d" ++ ", MyInvocation.BoundParameters);\n" ++
    "            if (!ConfirmShouldProceed(this.Force.IsPresent, resourceIdentifiersText, "

/-- ...and what stands behind the action. -/
def methodBack : String :=
  "))\n            \x7b\n                return;\n            \x7d\n"

/-- Reads a method that asks: the names in its array, and the action. -/
def readQuestion (cs : List Char) : Option (List (List Char) × List Char) := do
  let cs ← cs.dropPrefix? methodFront.toList
  let (names, cs) ← readLiterals cs
  let cs ← cs.dropPrefix? methodMiddle.toList
  let (action, cs) ← readLiteral cs
  let _ ← cs.dropPrefix? methodBack.toList
  return (names, action)

theorem dropPrefix?_append (front rest : List Char) :
    (front ++ rest).dropPrefix? front = some rest :=
  List.dropPrefix?_append_of_beq rest (beq_self_eq_true front)

/-- No further name follows where the array ends. -/
theorem dropPrefix?_methodMiddle (more : List Char) :
    (methodMiddle.toList ++ more).dropPrefix? ", ".toList = none := by
  rw [methodMiddle, String.toList_append, String.toList_append]
  rfl

/-- The question is read by reading its five parts one after the other. -/
theorem readQuestion_of_reads {cs₁ : List Char}
    (hfront : cs.dropPrefix? methodFront.toList = some cs₁)
    (hnames : readLiterals cs₁ = some (names, cs₂))
    (hmiddle : cs₂.dropPrefix? methodMiddle.toList = some cs₃)
    (haction : readLiteral cs₃ = some (action, cs₄))
    (hback : cs₄.dropPrefix? methodBack.toList = some cs₅) :
    readQuestion cs = some (names, action) := by
  simp [readQuestion, hfront, hnames, hmiddle, haction, hback]

/-- The names and the action are found between the parts that are always there. -/
theorem readQuestion_of_parts (name : String) (names : List String) (action : String)
    (rest : List Char) :
    readQuestion (methodFront.toList ++
        ((Code.separated ", " ((name :: names).map fun x => [.literal x])).print.toList ++
          (methodMiddle.toList ++ ((literal action).toList ++ (methodBack.toList ++ rest))))) =
      some ((name :: names).map String.toList, action.toList) :=
  readQuestion_of_reads (dropPrefix?_append _ _)
    (Source.readLiterals_separated name names (dropPrefix?_methodMiddle _))
    (dropPrefix?_append _ _) (Source.readLiteral_literal action _) (dropPrefix?_append _ _)

theorem lineAt_append {front : String} (h : front ≠ "") (level : Nat) (more : String) :
    lineAt level (front ++ more) = indentation level ++ (front ++ (more ++ "\n")) := by
  have hne : (front ++ more).isEmpty = false := by simp [h]
  simp [lineAt, hne, String.append_assoc]

namespace Outline

variable (x : Outline)

/-- The line of the question that lists the names, as printed. -/
theorem print_confirmedValues :
    x.confirmedValues.print =
      "var resourceIdentifiersText = FormatParameterValuesForConfirmationMsg(new[] \x7b " ++
        ((Code.separated ", "
          (x.operation.confirmParameters.map fun name => [.literal name])).print ++
            " \x7d, MyInvocation.BoundParameters);") := by
  simp only [confirmedValues, Code.print_append, Code.print, Source.Piece.print,
    String.append_assoc, String.append_empty]

/-- The line of the question that names the action, as printed. -/
theorem print_confirmQuestion :
    x.confirmQuestion.print =
      "if (!ConfirmShouldProceed(this.Force.IsPresent, resourceIdentifiersText, " ++
        (literal x.action ++ "))") := by
  have hfront : "if (!ConfirmShouldProceed(this.Force.IsPresent, resourceIdentifiersText, " =
      "if (!ConfirmShouldProceed(" ++ ("this" ++ ("." ++ (forceSwitch ++
        ".IsPresent, resourceIdentifiersText, "))) := by
    decide +kernel
  rw [hfront]
  simp only [confirmQuestion, Code.print, Source.Piece.print, String.append_assoc,
    String.append_empty]

/-- **The method that asks**, in its parts. -/
theorem textAt_processMethod (h : x.operation.isMutating = true) :
    ∃ rest, textAt 2 x.processMethod =
      methodFront ++ ((Code.separated ", "
          (x.operation.confirmParameters.map fun name => [.literal name])).print ++
        (methodMiddle ++ (literal x.action ++ (methodBack ++ rest)))) := by
  obtain ⟨after, hafter⟩ : ∃ after, x.processMethod =
      [Step.plain "protected override void ProcessRecord()", .openBlock,
        .plain "base.ProcessRecord();", .blank, .line x.confirmedValues,
        .line x.confirmQuestion, .openBlock, .plain "return;", .closeBlock] ++ after := by
    rw [processMethod, confirmation, if_pos h]
    exact ⟨_, rfl⟩
  have hfront : methodFront = lineAt 2 "protected override void ProcessRecord()" ++
      (lineAt 2 "\x7b" ++ (lineAt 3 "base.ProcessRecord();" ++ (lineAt 3 "" ++ (indentation 3 ++
        "var resourceIdentifiersText = FormatParameterValuesForConfirmationMsg(new[] \x7b ")))) := by
    decide +kernel
  have hmiddle : methodMiddle = " \x7d, MyInvocation.BoundParameters);" ++ ("\n" ++
      (indentation 3 ++
        "if (!ConfirmShouldProceed(this.Force.IsPresent, resourceIdentifiersText, ")) := by
    decide +kernel
  have hback : methodBack = "))" ++ ("\n" ++ (lineAt 3 "\x7b" ++ (lineAt 4 "return;" ++
      lineAt 3 "\x7d"))) := by
    decide +kernel
  refine ⟨textAt 3 after, ?_⟩
  rw [hafter, hfront, hmiddle, hback]
  simp [Step.plain, Step.blank, Code.print, Source.Piece.print, print_confirmedValues,
    print_confirmQuestion, lineAt_append, String.append_assoc, -String.reduceAppend]

/-- What stands in front of the method that binds the values. -/
def methodsFront : List Step :=
  x.classFront ++ x.parameters ++ [Step.blank] ++ x.switches ++ [Step.blank]

/-- The text of the method that asks stands in the source. -/
theorem within_processMethod : Within (textAt 2 x.processMethod) x.source := by
  have h := x.within_source x.methodsFront x.processMethod
    ([Step.blank] ++ x.executeMethod ++ [Step.blank] ++ x.contextClass ++
      [Step.closeBlock, .closeBlock]) (by
      simp only [methodsFront, classFront, heading, steps, classSteps, Step.block,
        List.append_assoc, List.cons_append, List.nil_append])
  simpa only [methodsFront, Step.levelAt_append, levelAt_classFront, x.isEven_parameters _,
    x.isEven_switches _, Step.blank, Step.levelAt_line_cons, Step.levelAt_nil] using h

end Outline

/-! ## The law of confirmation -/

/-- A literal is read back as its text, whatever follows it, and it is of one line. -/
structure IsDecoded (v : String) : Prop where
  reads : ∀ rest, readLiteral ((literal v).toList ++ rest) = some (v.toList, rest)
  oneLine : ∀ c ∈ (literal v).toList, ¬ IsLineEnd c

/-- The method of a cmdlet that binds the values asks for the names of the operation, each in its
place, and for the command with the operation behind it. -/
def Asks (s : Service) (r : Registry) (o : Operation) (c : SourceFile) : Prop :=
  ∃ x, outlineOf s r o = .ok x ∧ c = x.cmdlet ∧ Within (textAt 2 x.processMethod) c.source ∧
    readQuestion (textAt 2 x.processMethod).toList =
      some (o.confirmParameters.map String.toList, (c.commandName ++ " (" ++ o.name ++ ")").toList)

/-- **The law of confirmation**: literals are read back, and so is what a cmdlet asks. -/
theorem confirmationLaw :
    (∀ v, IsDecoded v) ∧
      ∀ s r o c, generateOne s r o = .ok c → o.isMutating = true → Asks s r o c := by
  refine ⟨fun v => ⟨Source.readLiteral_literal v, ?_⟩, fun s r o c hc hmutating => ?_⟩
  · exact fun c hc hend => Source.lineEnd_not_mem_literal hend v hc
  · obtain ⟨x, hx, rfl⟩ := generateOne_eq_ok_iff.mp hc
    obtain rfl := (outlines_of_outlineOf hx).operation_eq
    obtain ⟨name, names, hnames⟩ : ∃ name names, x.operation.confirmParameters = name :: names := by
      refine List.exists_cons_of_ne_nil fun hnone => ?_
      simp [Operation.isMutating, hnone] at hmutating
    obtain ⟨rest, hrest⟩ := x.textAt_processMethod hmutating
    refine ⟨x, hx, rfl, x.within_processMethod, ?_⟩
    have haction : x.cmdlet.commandName ++ " (" ++ x.operation.name ++ ")" = x.action := rfl
    rw [haction, hrest, hnames]
    simp only [String.toList_append]
    exact readQuestion_of_parts name names x.action rest.toList

/-- An operation that asks for a name with all that could end a literal or a list, twice. -/
def erasing : Operation where
  name := "DeleteObject"
  verb := "Remove"
  noun := "Object"
  requestType := "DeleteObjectRequest"
  properties := [⟨"Key", "System.String", true, none, none⟩]
  pagination := none
  confirmParameters := ["Key", "\", \"\\ \x7d", "Key"]
  customizations := []

/-- All three names are found. -/
theorem confirmationLaw_erasing :
    erasing.isMutating = true ∧ ∃ c, ∃ x : Outline,
      generateOne (storeOf erasing) .builtin erasing = .ok c ∧ c = x.cmdlet ∧
        readQuestion (textAt 2 x.processMethod).toList =
          some (["Key", "\", \"\\ \x7d", "Key"].map String.toList,
            "Remove-S3Object (DeleteObject)".toList) := by
  have hmutating : erasing.isMutating = true := by decide
  have hsuccess : isFailure (generateOne (storeOf erasing) .builtin erasing) = false := by
    decide +kernel
  obtain ⟨c, hc⟩ := exists_eq_ok hsuccess
  obtain ⟨x, hx, rfl, -, hread⟩ := confirmationLaw.2 _ _ _ c hc hmutating
  have houtlines := outlines_of_outlineOf hx
  refine ⟨hmutating, _, x, hc, rfl, hread.trans ?_⟩
  have hcommand : x.cmdlet.commandName = "Remove-S3Object" := by
    show commandOf x.service x.operation = _
    rw [houtlines.service_eq, houtlines.operation_eq]
    decide +kernel
  rw [hcommand]
  decide +kernel

end CmdletForge.Cmdlet
