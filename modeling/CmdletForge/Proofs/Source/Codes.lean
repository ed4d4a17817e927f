import CmdletForge.Proofs.Source.Names
import CmdletForge.Proofs.Source.Writing

/-!
# CmdletForge.Proofs.Source.Codes

The code in steps: what is written on their lines, those of regions among them.

1. The code of steps is that of their lines in a row (`Step.codeOf`).  The members of a variable
   that steps use, and the properties that they declare, are those of their code.
2. Steps stand *apart* when their text, at every level, reads as the members that they use
   (`Step.Apart`).  It is enough that the code of every line stands apart.
-/

namespace CmdletForge.Source

/-! ## Pieces -/

namespace Code

section
variable (owner : String) (c : Code)

/-- No code mentions no members. -/
@[simp] theorem membersOf_nil : membersOf owner [] = [] := rfl

/-- Of the pieces of code only members mention members: a text that stands as it is does not... -/
@[simp] theorem membersOf_text_cons (s : String) :
    membersOf owner (.text s :: c) = c.membersOf owner := rfl

/-- ...nor does a text between quotes, escaped... -/
@[simp] theorem membersOf_literal_cons (s : String) :
    membersOf owner (.literal s :: c) = c.membersOf owner := rfl

/-- ...or bare... -/
@[simp] theorem membersOf_bare_cons (s : String) :
    membersOf owner (.bare s :: c) = c.membersOf owner := rfl

/-- ...nor the declaration of a property. -/
@[simp] theorem membersOf_property_cons (typeName name : String) :
    membersOf owner (.property typeName name :: c) = c.membersOf owner := rfl

/-- A member counts when it is one of the variable that is asked for. -/
@[simp] theorem membersOf_member_cons (o name : String) :
    membersOf owner (.member o name :: c) =
      if o = owner then name :: c.membersOf owner else c.membersOf owner := by
  by_cases h : o = owner <;> simp [membersOf, h]

@[simp] theorem membersOf_map_text {α : Type} (f : α → String) (xs : List α) :
    membersOf owner (xs.map fun x => .text (f x)) = [] :=
  List.filterMap_eq_nil_iff.mpr fun p hp => by
    obtain ⟨x, -, rfl⟩ := List.mem_map.mp hp
    rfl

/-- What is mentioned item by item is mentioned in the order of the items. -/
theorem membersOf_flatMap {α : Type} (f : α → Code) (xs : List α) :
    membersOf owner (xs.flatMap f) = xs.flatMap fun x => (f x).membersOf owner :=
  List.filterMap_flatMap

end

section
variable (c : Code)

/-- No code declares nothing. -/
@[simp] theorem declared_nil : declared [] = [] := rfl

/-- Codes behind one another declare what each of them does. -/
@[simp] theorem declared_append (a b : Code) :
    declared (a ++ b : Code) = a.declared ++ b.declared := List.filterMap_append

/-- Only the declarations of properties declare names: a text does not... -/
@[simp] theorem declared_text_cons (s : String) : declared (.text s :: c) = c.declared := rfl

/-- ...nor does a literal... -/
@[simp] theorem declared_literal_cons (s : String) : declared (.literal s :: c) = c.declared := rfl

/-- ...nor the member of a variable... -/
@[simp] theorem declared_member_cons (owner name : String) :
    declared (.member owner name :: c) = c.declared := rfl

@[simp] theorem declared_bare_cons (s : String) : declared (.bare s :: c) = c.declared := rfl

/-- A property is declared by its name. -/
@[simp] theorem declared_property_cons (typeName name : String) :
    declared (.property typeName name :: c) = name :: c.declared := rfl

@[simp] theorem declared_map_text {α : Type} (f : α → String) (xs : List α) :
    declared (xs.map fun x => .text (f x)) = [] :=
  List.filterMap_eq_nil_iff.mpr fun p hp => by
    obtain ⟨x, -, rfl⟩ := List.mem_map.mp hp
    rfl

/-- So is what is declared. -/
theorem declared_flatMap {α : Type} (f : α → Code) (xs : List α) :
    declared (xs.flatMap f) = xs.flatMap fun x => (f x).declared :=
  List.filterMap_flatMap

end

/-! ### Plain code -/

/-- Code of texts and literals, without members and declarations. -/
def isPlain (c : Code) : Bool :=
  c.all fun
    | .text _ | .literal _ | .bare _ => true
    | .member _ _ | .property _ _ => false

/-- Plain code mentions no member of any variable... -/
theorem membersOf_of_isPlain {c : Code} (h : c.isPlain = true) (owner : String) :
    c.membersOf owner = [] :=
  List.filterMap_eq_nil_iff.mpr fun p hp => by
    have hplain := List.all_eq_true.mp h p hp
    cases p <;> first | rfl | contradiction

/-- ...and declares nothing. -/
theorem declared_of_isPlain {c : Code} (h : c.isPlain = true) : c.declared = [] :=
  List.filterMap_eq_nil_iff.mpr fun p hp => by
    have hplain := List.all_eq_true.mp h p hp
    cases p <;> first | rfl | contradiction

/-- Plain codes stay plain when they are put together with a separator. -/
theorem isPlain_separated (separator : String) {codes : List Code}
    (h : ∀ c ∈ codes, c.isPlain = true) : (separated separator codes).isPlain = true := by
  induction codes with
  | nil => rfl
  | cons c codes ih =>
    rw [List.forall_mem_cons] at h
    cases codes with
    | nil => exact h.1
    | cons d codes =>
      have hcons : separated separator (c :: d :: codes) =
        c ++ .text separator :: separated separator (d :: codes) := rfl
      rw [hcons, isPlain, List.all_append, List.all_cons, ← isPlain, ← isPlain, h.1, ih h.2]
      rfl

end Code

/-! ## Lines -/

namespace Step

mutual

/-- The code on the lines of a step. -/
def code : Step → Code
  | .line c => c
  | .region _ body => codeOf body
  | _ => []

/-- The code on the lines of steps. -/
def codeOf : List Step → Code
  | [] => []
  | s :: rest => s.code ++ codeOf rest

end

section
variable (steps : List Step)

/-- No steps have no code. -/
@[simp] theorem codeOf_nil : codeOf [] = [] := rfl

/-- Lines give their code one behind the other... -/
@[simp] theorem codeOf_line_cons (c : Code) : codeOf (.line c :: steps) = c ++ codeOf steps := rfl

@[simp] theorem codeOf_plain_cons (text : String) :
    codeOf (.plain text :: steps) = .text text :: codeOf steps := rfl

@[simp] theorem codeOf_blank_cons : codeOf (.blank :: steps) = codeOf steps := rfl

/-- ...and braces give none. -/
@[simp] theorem codeOf_openBlock_cons : codeOf (.openBlock :: steps) = codeOf steps := rfl

@[simp] theorem codeOf_closeBlock_cons : codeOf (.closeBlock :: steps) = codeOf steps := rfl

@[simp] theorem codeOf_back_cons : codeOf (.back :: steps) = codeOf steps := rfl

/-- A region gives the code of the steps in it; its two lines name no member. -/
@[simp] theorem codeOf_region_cons (name : String) (body : List Step) :
    codeOf (.region name body :: steps) = codeOf body ++ codeOf steps := rfl

end

/-- The code of steps is put together like the steps. -/
@[simp] theorem codeOf_append (a b : List Step) : codeOf (a ++ b) = codeOf a ++ codeOf b := by
  induction a with
  | nil => rfl
  | cons s a ih => rw [List.cons_append, codeOf, codeOf, ih, List.append_assoc]

/-- A block adds no code of its own. -/
@[simp] theorem codeOf_block (body : List Step) : codeOf (block body) = codeOf body := by
  rw [block, codeOf_append]
  exact List.append_nil _

/-- Steps that are written item by item give their code item by item. -/
theorem codeOf_flatMap {α : Type} (f : α → List Step) (xs : List α) :
    codeOf (xs.flatMap f) = xs.flatMap fun x => codeOf (f x) := by
  induction xs with
  | nil => rfl
  | cons x xs ih => rw [List.flatMap_cons, codeOf_append, ih, List.flatMap_cons]

/-- Lines that are written item by item give their code item by item. -/
theorem codeOf_map_line {α : Type} (f : α → Code) (xs : List α) :
    codeOf (xs.map fun x => .line (f x)) = xs.flatMap f := by
  induction xs with
  | nil => rfl
  | cons x xs ih => rw [List.map_cons, codeOf_line_cons, ih, List.flatMap_cons]

@[simp] theorem codeOf_map_plain {α : Type} (f : α → String) (xs : List α) :
    codeOf (xs.map fun x => .plain (f x)) = xs.map fun x => .text (f x) :=
  (codeOf_map_line (fun x => [.text (f x)]) xs).trans List.map_eq_flatMap.symm

/-! ## Steps that stand apart -/

/-- Indentation mentions nothing. -/
theorem reads_lineAt (h : Reads owner (text ++ "\n") names) (level : Nat) :
    Reads owner (lineAt level text) names := by
  have hspaces (n : Nat) : scan .between (List.replicate n ' ') = (.between, []) := by
    have hspace : Mode.between.next ' ' = (.between, []) := rfl
    induction n with
    | zero => rfl
    | succ n ih => rw [List.replicate_succ, scan, hspace, ih, List.append_nil]
  have hindentation : Reads owner (indentation level) [] := by
    rw [Reads, indentation, String.toList_ofList, hspaces]
    exact ⟨rfl, rfl⟩
  unfold lineAt
  split
  · next hempty => rwa [String.isEmpty_iff.mp hempty, String.empty_append] at h
  · rw [String.append_assoc]
    exact hindentation.append h

/-- Steps whose text, at every level, reads as the members that they use. -/
def Apart (owner : String) (steps : List Step) : Prop :=
  ∀ level, Reads owner (textAt level steps) ((codeOf steps).membersOf owner)

/-- Nothing is read of nothing. -/
theorem apart_nil (owner : String) : Apart owner [] := fun _ => reads_empty owner

/-- Steps of which members are read as they are meant can be put one behind the other. -/
theorem Apart.append (ha : Apart owner a) (hb : Apart owner b) : Apart owner (a ++ b) :=
  fun level => by
    rw [textAt_append, codeOf_append, Code.membersOf_append]
    exact (ha level).append (hb _)

/-- A line may leave a chain open, which its end breaks off. -/
theorem apart_line_of_reads (h : Reads owner (c.print ++ "\n") (c.membersOf owner)) :
    Apart owner [.line c] := fun level => by
  simpa using reads_lineAt h level

/-- A line is as good as its code, since the line end ends every name. -/
theorem apart_line (h : Source.Apart owner c) : Apart owner [.line c] := by
  have hend : Reads owner "\n" [] := ⟨rfl, rfl⟩
  exact apart_line_of_reads (by simpa using Reads.append h hend)

theorem Apart.line_cons (h : Source.Apart owner c) (hsteps : Apart owner steps) :
    Apart owner (.line c :: steps) :=
  (apart_line h).append hsteps

/-- Braces do not touch what is read. -/
theorem Apart.block (h : Apart owner body) : Apart owner (block body) := by
  have hopen : Apart owner [.openBlock] := fun level => by
    have hbrace : Reads owner ("\x7b" ++ "\n") [] := ⟨rfl, rfl⟩
    simpa using reads_lineAt hbrace level
  have hclose : Apart owner [.closeBlock] := fun level => by
    have hbrace : Reads owner ("\x7d" ++ "\n") [] := ⟨rfl, rfl⟩
    simpa using reads_lineAt hbrace (level - 1)
  exact (hopen.append h).append hclose

/-- Steps that are written item by item are read as they are meant when those of each item are. -/
theorem apart_flatMap {α : Type} {f : α → List Step} {xs : List α}
    (h : ∀ x ∈ xs, Apart owner (f x)) : Apart owner (xs.flatMap f) := by
  induction xs with
  | nil => exact apart_nil owner
  | cons x xs ih =>
    rw [List.forall_mem_cons] at h
    exact h.1.append (ih h.2)

end Step

end CmdletForge.Source
