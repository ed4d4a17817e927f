import CmdletForge.Proofs.Source.Codes
import CmdletForge.Proofs.Source.Regular

/-!
# CmdletForge.Proofs.Source.Quotations

The texts that stand between quotes in source code.

1. A quotation is a text and whether it is escaped.  Where it stands it is read back as the text,
   and ends where it was meant to end, exactly when it `Survives` (`Quotation.reads_iff`).
2. The quotations of steps are those of their code, and each of them stands in the text of the
   steps as it is printed (`Step.within_quotation`).
-/

namespace CmdletForge.Source

/-- A text between quotes. -/
structure Quotation where
  value : String
  escaped : Bool
  deriving DecidableEq, Repr

namespace Quotation

def print (q : Quotation) : String :=
  if q.escaped then Source.literal q.value else "\"" ++ q.value ++ "\""

/-- The characters that must not be in the text: what ends a line, unless it is escaped, and
without escapes also the quote and the backslash. -/
def forbidden (q : Quotation) : List Char :=
  if q.escaped then rareNewLines else '"' :: '\\' :: newLines

/-- A quotation of a text without such characters. -/
def Survives (q : Quotation) : Prop := ∀ c ∈ q.value.toList, c ∉ q.forbidden

instance (q : Quotation) : Decidable q.Survives :=
  List.decidableBAll (fun c => c ∉ q.forbidden) q.value.toList

/-- **A quotation is read back** as its text, and up to its end, exactly when it survives. -/
theorem reads_iff (q : Quotation) (rest : List Char) :
    readRegular (q.print.toList ++ rest) = some (units q.value.toList, rest) ↔ q.Survives := by
  obtain ⟨value, escaped⟩ := q
  cases escaped with
  | true =>
    have hprint : (print ⟨value, true⟩).toList ++ rest =
        '"' :: literalBody value.toList ++ '"' :: rest := by
      simp [print, literal]
    rw [hprint, readRegular_literal_iff]
    rfl
  | false =>
    have hprint : (print ⟨value, false⟩).toList ++ rest = '"' :: value.toList ++ '"' :: rest := by
      simp [print]
    rw [hprint, readRegular_bare_iff]
    simp [Survives, forbidden]

end Quotation

/-- What a piece of code quotes. -/
def Piece.quotation? : Piece → Option Quotation
  | .literal value => some ⟨value, true⟩
  | .bare value => some ⟨value, false⟩
  | _ => none

/-- A piece with a quotation is printed as that quotation. -/
theorem Piece.print_of_quotation? {p : Piece} (h : p.quotation? = some q) : p.print = q.print := by
  cases p <;> cases h <;> rfl

/-! ## Code -/

namespace Code

/-- The texts that stand between quotes in code, in order. -/
def quotations (c : Code) : List Quotation := c.filterMap Piece.quotation?

section
variable (c : Code)

@[simp] theorem quotations_nil : quotations [] = [] := rfl

/-- Codes behind one another have the quotations of both. -/
@[simp] theorem quotations_append (a b : Code) :
    quotations (a ++ b : Code) = a.quotations ++ b.quotations := List.filterMap_append

/-- Texts, members and properties put nothing between quotes... -/
@[simp] theorem quotations_text_cons (s : String) :
    quotations (.text s :: c) = c.quotations := rfl

@[simp] theorem quotations_member_cons (owner name : String) :
    quotations (.member owner name :: c) = c.quotations := rfl

@[simp] theorem quotations_property_cons (typeName name : String) :
    quotations (.property typeName name :: c) = c.quotations := rfl

/-- ...a literal puts its text there, escaped... -/
@[simp] theorem quotations_literal_cons (s : String) :
    quotations (.literal s :: c) = ⟨s, true⟩ :: c.quotations := rfl

/-- ...and a bare piece puts it there as it is. -/
@[simp] theorem quotations_bare_cons (s : String) :
    quotations (.bare s :: c) = ⟨s, false⟩ :: c.quotations := rfl

@[simp] theorem quotations_map_text {α : Type} (f : α → String) (xs : List α) :
    quotations (xs.map fun x => .text (f x)) = [] :=
  List.filterMap_eq_nil_iff.mpr fun p hp => by
    obtain ⟨x, -, rfl⟩ := List.mem_map.mp hp
    rfl

/-- What is quoted item by item is quoted in the order of the items. -/
theorem quotations_flatMap {α : Type} (f : α → Code) (xs : List α) :
    quotations (xs.flatMap f) = xs.flatMap fun x => (f x).quotations :=
  List.filterMap_flatMap

/-- A separator quotes nothing. -/
theorem quotations_separated (separator : String) (codes : List Code) :
    (separated separator codes).quotations = codes.flatMap quotations := by
  induction codes with
  | nil => rfl
  | cons c codes ih =>
    cases codes with
    | nil => simp [separated]
    | cons d codes =>
      have hcons : separated separator (c :: d :: codes) =
        c ++ .text separator :: separated separator (d :: codes) := rfl
      rw [hcons, quotations_append, quotations_text_cons, ih]
      rfl

end

/-- A piece stands in the code that it is a piece of. -/
theorem within_print {c : Code} (h : p ∈ c) : Within p.print c.print := by
  induction c with
  | nil => simp at h
  | cons q c ih =>
    obtain rfl | h := List.mem_cons.mp h
    · simpa [print] using within_append "" p.print (print c)
    · refine (ih h).trans ?_
      simpa [print] using within_append q.print (print c) ""

end Code

/-! ## Steps -/

/-- What stands on a line stands in it with its indentation. -/
theorem within_lineAt (h : Within part text) (level : Nat) : Within part (lineAt level text) := by
  unfold lineAt
  split
  · next hempty =>
    have hpart : part.toList = [] := by
      have htext : text = "" := String.isEmpty_iff.mp hempty
      simpa [Within, htext] using h
    rw [Within, hpart]
    exact List.nil_infix
  · exact h.trans (within_append _ _ _)

namespace Step

mutual

/-- A piece stands in what its step writes. -/
theorem within_write (level : Nat) (s : Step) (h : p ∈ s.code) :
    Within p.print (s.write (.start level)).text :=
  match s with
  | .line c => by
    have hline : ((Step.line c).write (.start level)).text = lineAt level c.print :=
      String.empty_append
    rw [hline]
    exact within_lineAt (Code.within_print h) level
  | .region name body => by
    rw [write_region]
    refine (within_codeOf level body h).trans ?_
    rw [← String.append_assoc]
    exact within_append _ _ _
  | .deeper | .back | .openBlock | .closeBlock => by simp [code] at h

/-- A piece on a line of steps stands in their text. -/
theorem within_codeOf (level : Nat) (steps : List Step) (h : p ∈ codeOf steps) :
    Within p.print (textAt level steps) :=
  match steps with
  | [] => by simp at h
  | s :: rest => by
    rw [textAt_cons]
    obtain h | h : p ∈ s.code ∨ p ∈ codeOf rest := List.mem_append.mp h
    · refine (within_write level s h).trans ?_
      simpa using within_append "" (s.write (.start level)).text _
    · have hrest := within_codeOf (s.write (.start level)).level rest h
      refine hrest.trans ?_
      simpa using within_append (s.write (.start level)).text
        (textAt (s.write (.start level)).level rest) ""

end

/-- **A quotation stands in the text of the steps** that have it. -/
theorem within_quotation (level : Nat) {steps : List Step}
    (h : q ∈ (codeOf steps).quotations) : Within q.print (textAt level steps) := by
  obtain ⟨p, hp, hq⟩ := List.mem_filterMap.mp h
  rw [← Piece.print_of_quotation? hq]
  exact within_codeOf level steps hp

end Step

end CmdletForge.Source
