import CmdletForge.Proofs.Lists.Positions
import CmdletForge.Proofs.Source.Writing
import CmdletForge.Text.Basic

/-!
# CmdletForge.Proofs.Source.Indentation

Steps that begin at a deeper level.

1. A region is the steps inside of it, between two lines.  So steps write what the same steps
   without regions write (`writeAll_flatAll`).
2. Steps that never go back behind the level that they begin at write the same lines at every
   level, each of them behind four spaces for each level, but for empty ones
   (`textAt_add`).
3. Steps are *nested* when every block is closed and nothing else changes the level.  They come
   back to the level that they begin at, and a closing brace stands where its opening brace does
   (`textAt_of_pair`).
-/

namespace CmdletForge.Source

/-! ## Indented texts -/

/-- A line that stands some levels deeper, unless it is empty. -/
def indentLine (levels : Nat) (line : String) : String :=
  if line.isEmpty then line else indentation levels ++ line

/-- A text whose lines stand some levels deeper. -/
def indented (levels : Nat) (text : String) : String :=
  "\n".intercalate ((Text.split '\n' text).map (indentLine levels))

/-- A text is split at the first separator that comes. -/
theorem splitFrom_append_cons {sep : Char} {cs : List Char} (h : sep ∉ cs)
    (acc rest : List Char) :
    Text.splitFrom sep acc (cs ++ sep :: rest) =
      (acc.reverse ++ cs) :: Text.splitFrom sep [] rest := by
  induction cs generalizing acc with
  | nil => simp [Text.splitFrom]
  | cons c cs ih =>
    obtain ⟨hc, hcs⟩ : sep ≠ c ∧ sep ∉ cs := by simpa using h
    simp [Text.splitFrom, Ne.symm hc, ih hcs]

/-- A split has one piece at least. -/
theorem splitFrom_ne_nil (sep : Char) (acc cs : List Char) : Text.splitFrom sep acc cs ≠ [] := by
  induction cs generalizing acc with
  | nil => simp [Text.splitFrom]
  | cons c cs ih =>
    rw [Text.splitFrom]
    split
    · simp
    · exact ih _

/-- An empty line stays empty, however deep it stands. -/
@[simp] theorem indented_empty (levels : Nat) : indented levels "" = "" := by
  simp [indented, Text.split, Text.splitFrom, indentLine]

/-- A line is indented for itself. -/
theorem indented_line_append {line : String} (h : '\n' ∉ line.toList) (levels : Nat)
    (text : String) :
    indented levels (line ++ "\n" ++ text) =
      indentLine levels line ++ "\n" ++ indented levels text := by
  have hsplit : Text.split '\n' (line ++ "\n" ++ text) = line :: Text.split '\n' text := by
    have hchars : (line ++ "\n" ++ text).toList = line.toList ++ '\n' :: text.toList := by simp
    rw [Text.split, hchars, splitFrom_append_cons h]
    simp [Text.split]
  have hne : (Text.split '\n' text).map (indentLine levels) ≠ [] := by
    simp [Text.split, splitFrom_ne_nil]
  rw [indented, hsplit, List.map_cons, String.intercalate_cons_of_ne_nil hne, indented]

/-- The indentations of two levels stand behind one another. -/
theorem indentation_add (k level : Nat) :
    indentation (k + level) = indentation k ++ indentation level := by
  rw [indentation, indentation, indentation, ← String.ofList_append,
    List.replicate_append_replicate, Nat.mul_add]

/-- A line at a deeper level is the line indented. -/
theorem indented_lineAt_append {line : String} (h : '\n' ∉ line.toList) (k level : Nat)
    (text : String) :
    indented k (lineAt level line ++ text) = lineAt (k + level) line ++ indented k text := by
  unfold lineAt
  split
  next hempty =>
    have hnone : '\n' ∉ "".toList := by simp
    have hline := indented_line_append hnone k text
    simpa [indentLine] using hline
  next hne =>
    have hspaces : '\n' ∉ (indentation level ++ line).toList := by
      simp [indentation, h]
    have hshown : (indentation level ++ line).isEmpty = false := by
      simpa using fun _ => by simpa using hne
    rw [indented_line_append hspaces, indentLine, hshown, indentation_add]
    simp [String.append_assoc]

namespace Step

/-! ## Steps without regions -/

mutual

/-- A step as steps that are no regions. -/
def flat : Step → List Step
  | .region name body => .plain ("#region " ++ name) :: (flatAll body ++ [.plain "#endregion"])
  | s => [s]

/-- Steps as steps that are no regions. -/
def flatAll : List Step → List Step
  | [] => []
  | s :: rest => s.flat ++ flatAll rest

end

mutual

/-- A step does what its flat form does... -/
theorem writeAll_flat (w : Writer) (s : Step) : writeAll w s.flat = s.write w :=
  match s with
  | .line _ | .deeper | .back | .openBlock | .closeBlock => rfl
  | .region name body => by
    have hname : (Code.print [.text ("#region " ++ name)]) = "#region " ++ name := by
      simp [Code.print, Piece.print]
    rw [flat, writeAll, writeAll_append, writeAll_flatAll, plain, write, hname, write]
    rfl

/-- **Regions are lines and what stands between them.** -/
theorem writeAll_flatAll (w : Writer) (steps : List Step) :
    writeAll w (flatAll steps) = writeAll w steps :=
  match steps with
  | [] => rfl
  | s :: rest => by rw [flatAll, writeAll_append, writeAll_flat, writeAll_flatAll, writeAll]

end

/-- ...so steps write what their flat forms write... -/
theorem textAt_flatAll (level : Nat) (steps : List Step) :
    textAt level (flatAll steps) = textAt level steps := by
  rw [textAt, writeAll_flatAll, textAt]

/-- ...and leave the level that these leave. -/
theorem levelAt_flatAll (level : Nat) (steps : List Step) :
    levelAt level (flatAll steps) = levelAt level steps := by
  rw [levelAt, writeAll_flatAll, levelAt]

/-- Steps among which there is no region. -/
def IsFlat (steps : List Step) : Prop := ∀ name body, .region name body ∉ steps

/-- Flat steps are those of which none is a region. -/
theorem isFlat_cons {s : Step} {steps : List Step} :
    IsFlat (s :: steps) ↔ (∀ name body, s ≠ .region name body) ∧ IsFlat steps := by
  simp only [IsFlat, List.mem_cons, not_or, forall_and, ne_comm]

mutual

/-- The flat form of a step is flat... -/
theorem isFlat_flat (s : Step) : IsFlat s.flat :=
  match s with
  | .line _ | .deeper | .back | .openBlock | .closeBlock => by simp [flat, IsFlat]
  | .region name body => fun other inner hmem => by
    have hbody := isFlat_flatAll body other inner
    simp [flat, plain, hbody] at hmem

/-- ...and so is that of several. -/
theorem isFlat_flatAll (steps : List Step) : IsFlat (flatAll steps) :=
  match steps with
  | [] => fun _ _ => List.not_mem_nil
  | s :: rest => fun name body hmem =>
    (List.mem_append.mp hmem).elim (isFlat_flat s name body) (isFlat_flatAll rest name body)

end

/-! ## Steps at a deeper level -/

/-- No line has a line feed in it. -/
def IsOneLined (steps : List Step) : Prop :=
  ∀ c, .line c ∈ flatAll steps → '\n' ∉ c.print.toList

/-- Steps that, begun at a level, never go back behind it. -/
def StaysAbove (level : Nat) (steps : List Step) : Prop :=
  ∀ before, before <+: flatAll steps → level ≤ levelAt level before

/-- What may be said of the first step and of those behind it. -/
theorem forall_prefix_cons {P : List Step → Prop} {s : Step} {steps : List Step}
    (h : ∀ before, before <+: s :: steps → P before) :
    ∀ before, before <+: steps → P (s :: before) :=
  fun before hbefore => h (s :: before) (List.cons_prefix_cons.mpr ⟨rfl, hbefore⟩)

/-- The induction is on the steps, and holds at every level that they may have come to from the
level `k` at which they began. -/
theorem textAt_add {k level : Nat} {steps : List Step} (hflat : IsFlat steps)
    (hlines : ∀ c, .line c ∈ steps → '\n' ∉ c.print.toList)
    (hstays : ∀ before, before <+: steps → k ≤ levelAt (k + level) before) :
    textAt (k + level) steps = indented k (textAt level steps) ∧
      levelAt (k + level) steps = k + levelAt level steps := by
  induction steps generalizing level with
  | nil => exact ⟨(indented_empty k).symm, rfl⟩
  | cons s steps ih =>
    obtain ⟨hs, hflat'⟩ := isFlat_cons.mp hflat
    have hlines' : ∀ c, .line c ∈ steps → '\n' ∉ c.print.toList :=
      fun c hc => hlines c (.tail _ hc)
    have hstays' := forall_prefix_cons hstays
    cases s with
    | line c =>
      have hrest := ih hflat' hlines' (by simpa using hstays')
      have hline := indented_lineAt_append (hlines c List.mem_cons_self) k level
      simp [hline, hrest]
    | deeper =>
      have hrest := @ih (level + 1) hflat' hlines' (by simpa [Nat.add_assoc] using hstays')
      simpa [Nat.add_assoc] using hrest
    | back =>
      -- the level that is left is not above that of the beginning
      have hlevel : k + level - 1 = k + (level - 1) := by
        have hle := hstays' [] List.nil_prefix
        simp only [levelAt_back_cons, levelAt_nil] at hle
        omega
      have hrest := @ih (level - 1) hflat' hlines' (by simpa [hlevel] using hstays')
      simpa [hlevel] using hrest
    | openBlock =>
      have hrest := @ih (level + 1) hflat' hlines' (by simpa [Nat.add_assoc] using hstays')
      have hopening : '\n' ∉ "\x7b".toList := by decide
      have hbrace := indented_lineAt_append hopening k level
      simpa [Nat.add_assoc, hbrace] using hrest
    | closeBlock =>
      have hlevel : k + level - 1 = k + (level - 1) := by
        have hle := hstays' [] List.nil_prefix
        simp only [levelAt_closeBlock_cons, levelAt_nil] at hle
        omega
      have hrest := @ih (level - 1) hflat' hlines' (by simpa [hlevel] using hstays')
      have hclosing : '\n' ∉ "\x7d".toList := by decide
      have hbrace := indented_lineAt_append hclosing k (level - 1)
      simpa [hlevel, hbrace] using hrest
    | region name body => exact absurd rfl (hs name body)

/-! ## Nested blocks -/

/-- Steps whose blocks are closed, and which change the level in no other way. -/
inductive IsNested : List Step → Prop
  | nil : IsNested []
  | line {rest : List Step} (c : Code) (hrest : IsNested rest) : IsNested (.line c :: rest)
  | block {body rest : List Step} (hbody : IsNested body) (hrest : IsNested rest) :
      IsNested (.openBlock :: (body ++ .closeBlock :: rest))

namespace IsNested

variable {steps : List Step}

/-- Well-nested steps come back to the level where they began. -/
theorem isEven (h : IsNested steps) : IsEven steps := by
  induction h with
  | nil => exact isEven_nil
  | line c _ ih => exact ih.line_cons c
  | @block body rest _ _ ihbody ihrest =>
    intro level
    rw [levelAt_openBlock_cons, levelAt_append, ihbody, levelAt_closeBlock_cons,
      Nat.add_sub_cancel, ihrest]

/-- Nested steps stay above the level that they begin at. -/
theorem le_levelAt (h : IsNested steps) {before : List Step} (hbefore : before <+: steps)
    (level : Nat) : level ≤ levelAt level before := by
  induction h generalizing before level with
  | nil =>
    obtain rfl := List.prefix_nil.mp hbefore
    exact Nat.le_refl level
  | line c _ ih =>
    cases before with
    | nil => exact Nat.le_refl level
    | cons s before =>
      obtain ⟨rfl, hrest⟩ := List.cons_prefix_cons.mp hbefore
      rw [levelAt_line_cons]
      exact ih hrest level
  | @block body rest hbody _ ihbody ihrest =>
    cases before with
    | nil => exact Nat.le_refl level
    | cons s before =>
      obtain ⟨rfl, hbehind⟩ := List.cons_prefix_cons.mp hbefore
      rw [levelAt_openBlock_cons]
      obtain hinside | ⟨inner, rfl⟩ :=
        List.prefix_or_prefix_of_prefix hbehind (List.prefix_append body _)
      · exact Nat.le_of_succ_le (ihbody hinside (level + 1))
      · rw [levelAt_append, hbody.isEven]
        cases inner with
        | nil => exact Nat.le_succ level
        | cons s inner =>
          rw [List.prefix_append_right_inj] at hbehind
          obtain ⟨rfl, hrest⟩ := List.cons_prefix_cons.mp hbehind
          rw [levelAt_closeBlock_cons, Nat.add_sub_cancel]
          exact ihrest hrest level

/-- **Each closing brace has an opening one**, with nested steps in between. -/
theorem exists_open (h : IsNested steps) {front after : List Step}
    (hsteps : steps = front ++ .closeBlock :: after) :
    ∃ before inside, front = before ++ .openBlock :: inside ∧ IsNested inside := by
  induction h generalizing front after with
  | nil => simp at hsteps
  | line c _ ih =>
    cases front with
    | nil => simp at hsteps
    | cons s front =>
      obtain ⟨rfl, hrest⟩ := List.cons.inj hsteps
      obtain ⟨before, inside, rfl, hinside⟩ := ih hrest
      exact ⟨.line c :: before, inside, rfl, hinside⟩
  | @block body rest hbody _ ihbody ihrest =>
    cases front with
    | nil => simp at hsteps
    | cons s front =>
      obtain ⟨rfl, hrest⟩ := List.cons.inj hsteps
      rcases append_cons_cases hrest with ⟨more, rfl, hafter⟩ | ⟨rfl, -, -⟩ | ⟨more, hmore, -⟩
      · obtain ⟨before, inside, rfl, hinside⟩ := ihrest hafter
        exact ⟨.openBlock :: body ++ .closeBlock :: before, inside, by simp, hinside⟩
      · exact ⟨[], body, rfl, hbody⟩
      · obtain ⟨before, inside, rfl, hinside⟩ := ihbody hmore
        exact ⟨.openBlock :: before, inside, rfl, hinside⟩

end IsNested

/-- **A block stands between braces of one level**, whatever stands around it. -/
theorem textAt_of_pair {inside : List Step} (h : IsNested inside) (level : Nat)
    (before after : List Step) :
    textAt level (before ++ .openBlock :: (inside ++ .closeBlock :: after)) =
      textAt level before ++ (lineAt (levelAt level before) "\x7b" ++
        (textAt (levelAt level before + 1) inside ++
          (lineAt (levelAt level before) "\x7d" ++ textAt (levelAt level before) after))) := by
  simp only [textAt_append, textAt_openBlock_cons, textAt_closeBlock_cons, h.isEven _,
    Nat.add_sub_cancel]

/-! ## The law of indentation -/

/-- What is to be said of steps that begin at the level `k`. -/
structure IndentationLaw (k : Nat) (steps : List Step) : Prop where
  /-- When they never go back behind it, they write what they write from the start of a line, with
  each line `k` levels deeper... -/
  text_eq : IsOneLined steps → StaysAbove k steps →
    textAt k steps = indented k (textAt 0 steps)
  /-- ...and end as many levels deeper. -/
  level_eq : IsOneLined steps → StaysAbove k steps → levelAt k steps = k + levelAt 0 steps
  /-- Nested steps do not go back behind it, and restore it. -/
  restored : IsNested (flatAll steps) → StaysAbove k steps ∧ levelAt k steps = k
  /-- Each of their closing braces ends a block, and stands at the level of the opening one. -/
  closed : IsNested (flatAll steps) → ∀ front after, flatAll steps = front ++ .closeBlock :: after →
    ∃ before inside, front = before ++ .openBlock :: inside ∧ IsNested inside ∧
      textAt k steps =
        textAt k before ++ (lineAt (levelAt k before) "\x7b" ++
          (textAt (levelAt k before + 1) inside ++
            (lineAt (levelAt k before) "\x7d" ++ textAt (levelAt k before) after)))

/-- **The law of indentation.** -/
theorem indentationLaw (k : Nat) (steps : List Step) : IndentationLaw k steps := by
  have hshift : IsOneLined steps → StaysAbove k steps →
      textAt k (flatAll steps) = indented k (textAt 0 (flatAll steps)) ∧
        levelAt k (flatAll steps) = k + levelAt 0 (flatAll steps) :=
    fun hlines hstays => @textAt_add k 0 _ (isFlat_flatAll steps) hlines hstays
  simp only [textAt_flatAll, levelAt_flatAll] at hshift
  refine ⟨fun hlines hstays => (hshift hlines hstays).1,
    fun hlines hstays => (hshift hlines hstays).2, fun hnested => ⟨?_, ?_⟩, ?_⟩
  · exact fun before hbefore => hnested.le_levelAt hbefore k
  · rw [← levelAt_flatAll]
    exact hnested.isEven k
  · intro hnested front after hfront
    obtain ⟨before, inside, rfl, hinside⟩ := hnested.exists_open hfront
    refine ⟨before, inside, rfl, hinside, ?_⟩
    rw [← textAt_flatAll, hfront, List.append_assoc, List.cons_append]
    exact textAt_of_pair hinside k before after

/-- A region that is left open inside is closed behind it; the empty line stays bare. -/
example : textAt 1 [.region "Keys" [.openBlock, .blank], .plain "return;", .closeBlock] =
    "    #region Keys\n    \x7b\n\n        #endregion\n        return;\n    \x7d\n" := by
  decide +kernel

end Step

end CmdletForge.Source
