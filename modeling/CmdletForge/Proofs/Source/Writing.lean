import CmdletForge.Source.Writer

/-!
# CmdletForge.Proofs.Source.Writing

What steps do to a writer.

1. Steps put text behind what is written and change the level.  Both depend on the level that they
   begin at and on nothing else (`writeAll_eq`), so the text of steps in a row is put together from
   their texts (`textAt_append`).
2. Steps are *even* when they come back to the level that they began at.  Lines, blocks of even
   steps and regions of even steps are even.
3. A text is *within* another when it stands there as it is.
-/

namespace CmdletForge.Source

/-! ## Text and level -/

/-- A text in front of what a writer has written. -/
def Writer.behind (text : String) (w : Writer) : Writer := { w with text := text ++ w.text }

/-- A line does not depend on what stands in front of it... -/
theorem Writer.line_behind (text : String) (w : Writer) (s : String) :
    (w.behind text).line s = (w.line s).behind text := by
  simp only [line, behind, String.append_assoc]

namespace Step

mutual

/-- ...and neither does any other step. -/
theorem write_behind (text : String) (w : Writer) (s : Step) :
    s.write (w.behind text) = (s.write w).behind text :=
  match s with
  | .line code => w.line_behind text code.print
  | .deeper => rfl
  | .back => rfl
  | .openBlock => congrArg Writer.deeper (w.line_behind text "\x7b")
  | .closeBlock => w.back.line_behind text "\x7d"
  | .region name body => by
    rw [write, write, Writer.line_behind, writeAll_behind text _ body, Writer.line_behind]

/-- What has been written before stays in front of what steps write, and that is all of it. -/
theorem writeAll_behind (text : String) (w : Writer) (steps : List Step) :
    writeAll (w.behind text) steps = (writeAll w steps).behind text :=
  match steps with
  | [] => rfl
  | s :: rest => by
    rw [writeAll, writeAll, write_behind text w s, writeAll_behind text _ rest]

end

/-- The level that steps leave when they begin at the given one. -/
def levelAt (level : Nat) (steps : List Step) : Nat := (writeAll (.start level) steps).level

/-- **Steps only put text behind what is written**, and the text and the level that they leave
depend on nothing but the level. -/
theorem writeAll_eq (w : Writer) (steps : List Step) :
    writeAll w steps = ⟨w.text ++ textAt w.level steps, levelAt w.level steps⟩ := by
  have hstart : w = (Writer.start w.level).behind w.text := by
    rw [Writer.behind, Writer.start, String.append_empty]
  conv => lhs; rw [hstart, writeAll_behind]
  rfl

/-- Steps are done one after the other. -/
theorem writeAll_append (w : Writer) (a b : List Step) :
    writeAll w (a ++ b) = writeAll (writeAll w a) b := by
  induction a generalizing w with
  | nil => rfl
  | cons s a ih => exact ih (s.write w)

section
variable (level : Nat)

/-- Without steps nothing is written... -/
@[simp] theorem textAt_nil : textAt level [] = "" := rfl

/-- ...and the level stays. -/
@[simp] theorem levelAt_nil : levelAt level [] = level := rfl

/-- The level goes through the steps in turn. -/
theorem levelAt_append (a b : List Step) :
    levelAt level (a ++ b) = levelAt (levelAt level a) b := by
  rw [levelAt, writeAll_append, writeAll_eq (writeAll _ a)]
  rfl

/-- The text of steps in a row. -/
theorem textAt_append (a b : List Step) :
    textAt level (a ++ b) = textAt level a ++ textAt (levelAt level a) b := by
  rw [textAt, writeAll_append, writeAll_eq (writeAll _ a)]
  rfl

/-! ## Single steps -/

/-- What is written of a region: its two lines, and between them its steps. -/
theorem write_region (name : String) (body : List Step) :
    (Step.region name body).write (.start level) =
      ⟨lineAt level ("#region " ++ name) ++
        (textAt level body ++ lineAt (levelAt level body) "#endregion"), levelAt level body⟩ := by
  rw [write, writeAll_eq]
  simp only [Writer.line, Writer.start, String.empty_append, String.append_assoc]

section
variable (steps : List Step)

/-- A first step writes its text, and the others go on at the level that it leaves. -/
theorem textAt_cons (s : Step) :
    textAt level (s :: steps) =
      (s.write (.start level)).text ++ textAt (s.write (.start level)).level steps := by
  rw [textAt, writeAll, writeAll_eq]

/-- The level behind steps is that which the others leave behind the first one. -/
theorem levelAt_cons (s : Step) :
    levelAt level (s :: steps) = levelAt (s.write (.start level)).level steps := by
  rw [levelAt, writeAll, writeAll_eq]

/-- A line keeps the level... -/
@[simp] theorem levelAt_line_cons (code : Code) :
    levelAt level (.line code :: steps) = levelAt level steps := levelAt_cons ..

@[simp] theorem levelAt_plain_cons (text : String) :
    levelAt level (.plain text :: steps) = levelAt level steps := levelAt_cons ..

/-- ...an opening brace goes one deeper... -/
@[simp] theorem levelAt_openBlock_cons :
    levelAt level (.openBlock :: steps) = levelAt (level + 1) steps := levelAt_cons ..

/-- ...and a closing one goes back. -/
@[simp] theorem levelAt_closeBlock_cons :
    levelAt level (.closeBlock :: steps) = levelAt (level - 1) steps := levelAt_cons ..

@[simp] theorem levelAt_deeper_cons :
    levelAt level (.deeper :: steps) = levelAt (level + 1) steps := levelAt_cons ..

@[simp] theorem levelAt_back_cons :
    levelAt level (.back :: steps) = levelAt (level - 1) steps := levelAt_cons ..

/-- A region leaves the level that the steps in it leave. -/
@[simp] theorem levelAt_region_cons (name : String) (body : List Step) :
    levelAt level (.region name body :: steps) = levelAt (levelAt level body) steps := by
  rw [levelAt_cons, write_region]

/-- A line is written at the level where it stands... -/
@[simp] theorem textAt_line_cons (code : Code) :
    textAt level (.line code :: steps) = lineAt level code.print ++ textAt level steps := by
  rw [textAt_cons]
  exact congrArg (· ++ _) String.empty_append

@[simp] theorem textAt_deeper_cons :
    textAt level (.deeper :: steps) = textAt (level + 1) steps :=
  (textAt_cons level steps .deeper).trans String.empty_append

@[simp] theorem textAt_back_cons :
    textAt level (.back :: steps) = textAt (level - 1) steps :=
  (textAt_cons level steps .back).trans String.empty_append

/-- ...an opening brace in front of the deeper lines... -/
@[simp] theorem textAt_openBlock_cons :
    textAt level (.openBlock :: steps) = lineAt level "\x7b" ++ textAt (level + 1) steps := by
  rw [textAt_cons]
  exact congrArg (· ++ _) String.empty_append

/-- ...and a closing one behind them, a level back. -/
@[simp] theorem textAt_closeBlock_cons :
    textAt level (.closeBlock :: steps) =
      lineAt (level - 1) "\x7d" ++ textAt (level - 1) steps := by
  rw [textAt_cons]
  exact congrArg (· ++ _) String.empty_append

/-- The last line of a region stands at the level that its steps leave. -/
@[simp] theorem textAt_region_cons (name : String) (body : List Step) :
    textAt level (.region name body :: steps) =
      lineAt level ("#region " ++ name) ++ (textAt level body ++
        (lineAt (levelAt level body) "#endregion" ++ textAt (levelAt level body) steps)) := by
  rw [textAt_cons, write_region]
  simp only [String.append_assoc]

end

end

/-! ## Even steps -/

/-- Steps that leave the level that they begin at. -/
def IsEven (steps : List Step) : Prop := ∀ level, levelAt level steps = level

/-- No steps keep the level... -/
theorem isEven_nil : IsEven [] := fun _ => rfl

/-- ...and so does a line. -/
theorem isEven_line (code : Code) : IsEven [.line code] := fun _ => rfl

/-- Steps that keep the level can be put one behind the other... -/
theorem IsEven.append (ha : IsEven a) (hb : IsEven b) : IsEven (a ++ b) := fun level => by
  rw [levelAt_append, ha, hb]

theorem IsEven.line_cons (code : Code) (h : IsEven steps) : IsEven (.line code :: steps) :=
  (isEven_line code).append h

/-- ...for each item of a list... -/
theorem isEven_flatMap {α : Type} {f : α → List Step} {xs : List α}
    (h : ∀ x ∈ xs, IsEven (f x)) : IsEven (xs.flatMap f) := by
  induction xs with
  | nil => exact isEven_nil
  | cons x xs ih =>
    rw [List.forall_mem_cons] at h
    rw [List.flatMap_cons]
    exact h.1.append (ih h.2)

/-- Lines are even. -/
theorem isEven_map_line {α : Type} (f : α → Code) (xs : List α) :
    IsEven (xs.map fun x => .line (f x)) := by
  rw [List.map_eq_flatMap]
  exact isEven_flatMap fun x _ => isEven_line (f x)

/-- ...and into a region. -/
theorem IsEven.region (name : String) (h : IsEven body) : IsEven [.region name body] :=
  fun level => by rw [levelAt_region_cons, h, levelAt_nil]

/-- A block goes one level deeper and comes back. -/
theorem IsEven.block (h : IsEven body) : IsEven (Step.block body) := fun level => by
  rw [Step.block, List.cons_append, levelAt_openBlock_cons, levelAt_append, h,
    levelAt_closeBlock_cons, levelAt_nil, Nat.add_sub_cancel]

/-- The text of even steps, each put behind the last. -/
theorem textAt_flatMap {α : Type} {f : α → List Step} {xs : List α}
    (h : ∀ x ∈ xs, IsEven (f x)) (level : Nat) :
    textAt level (xs.flatMap f) = String.join (xs.map fun x => textAt level (f x)) := by
  induction xs with
  | nil => rfl
  | cons x xs ih =>
    rw [List.forall_mem_cons] at h
    rw [List.flatMap_cons, textAt_append, h.1, ih h.2, List.map_cons, String.join_cons]

end Step

/-! ## Parts of a text -/

/-- A text that stands in another as it is. -/
def Within (part whole : String) : Prop := part.toList <:+: whole.toList

instance : Decidable (Within part whole) := inferInstanceAs (Decidable (_ <:+: _))

/-- What stands in a part stands in the whole. -/
theorem Within.trans (hab : Within a b) (hbc : Within b c) : Within a c :=
  List.IsInfix.trans hab hbc

/-- A part stands between what is in front of it and what is behind. -/
theorem within_append (before part after : String) : Within part (before ++ part ++ after) := by
  rw [Within, String.toList_append, String.toList_append]
  exact List.infix_append _ _ _

/-- Each of several texts stands in all of them together. -/
theorem within_join (h : part ∈ parts) : Within part (String.join parts) := by
  rw [Within, String.toList_join, List.flatMap_def]
  exact List.infix_of_mem_flatten (List.mem_map_of_mem h)

/-- Among steps in a row, what some of them write at the level that they begin at. -/
theorem Step.within_textAt (level : Nat) (before part after : List Step) :
    Within (textAt (levelAt level before) part) (textAt level (before ++ part ++ after)) := by
  rw [textAt_append, textAt_append]
  exact within_append _ _ _

end CmdletForge.Source
