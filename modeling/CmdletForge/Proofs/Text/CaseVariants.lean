import Mathlib.Data.List.Forall2
import Mathlib.Logic.Function.Basic
import CmdletForge.Text.Basic

/-!
# CmdletForge.Proofs.Text.CaseVariants

Texts that are equal up to the case of letters.

1. Two characters are *case variants* when they are the same, or the capital and the small one of
   a letter of `A` to `Z`.  A character that is no such letter is a variant of itself only.
2. Two texts are case variants when their characters are, place by place.  The comparison finds
   out just that (`sameIgnoringCase_iff`), and it is an equivalence (`caseVariant_equivalence`).
-/

namespace CmdletForge.Text

/-! ## Characters -/

/-- The capital and the small one of a letter of `A` to `Z`. -/
def IsCapitalOf (capital small : Char) : Prop :=
  'A' ≤ capital ∧ capital ≤ 'Z' ∧ small.toNat = capital.toNat + 32

/-- The same character, or the two of a letter. -/
def CharVariant (a b : Char) : Prop := a = b ∨ IsCapitalOf a b ∨ IsCapitalOf b a

theorem le_iff_toNat_le (a b : Char) : a ≤ b ↔ a.toNat ≤ b.toNat := Iff.rfl

/-- The number of a character whose letter is made small. -/
theorem toNat_lowerAscii (c : Char) :
    (lowerAscii c).toNat = if 'A' ≤ c ∧ c ≤ 'Z' then c.toNat + 32 else c.toNat := by
  unfold lowerAscii
  split
  next hcapital =>
    have hle : c.toNat ≤ 'Z'.toNat := hcapital.2
    have hvalid : (c.toNat + 32).isValidChar := by
      left
      have hz : 'Z'.toNat = 90 := rfl
      omega
    rw [Char.ofNat, dif_pos hvalid]
    rfl
  next => rfl

/-- **Made small, characters are the same exactly when they are variants.** -/
theorem lowerAscii_eq_iff {a b : Char} : lowerAscii a = lowerAscii b ↔ CharVariant a b := by
  have ha : 'A'.toNat = 65 := rfl
  have hz : 'Z'.toNat = 90 := rfl
  simp only [CharVariant, IsCapitalOf, ← Char.toNat_inj, toNat_lowerAscii, le_iff_toNat_le]
  split <;> split <;> omega

/-! ## Texts -/

/-- Texts whose characters are variants, place by place. -/
def CaseVariant (a b : String) : Prop := List.Forall₂ CharVariant a.toList b.toList

/-- Two texts are folded to one exactly when they are case variants. -/
theorem foldAscii_eq_iff {a b : String} : foldAscii a = foldAscii b ↔ CaseVariant a b := by
  rw [foldAscii, foldAscii, ← List.forall₂_eq_eq_eq, List.forall₂_map_left_iff,
    List.forall₂_map_right_iff]
  simp only [lowerAscii_eq_iff, CaseVariant]

/-- **The comparison tells whether texts are variants.** -/
theorem sameIgnoringCase_iff {a b : String} : sameIgnoringCase a b = true ↔ CaseVariant a b := by
  rw [sameIgnoringCase, beq_iff_eq, foldAscii_eq_iff]

instance : DecidableRel CaseVariant := fun _ _ => decidable_of_iff _ sameIgnoringCase_iff

theorem caseVariant_equivalence : Equivalence CaseVariant := by
  have hkernel : CaseVariant = InvImage Eq foldAscii := by
    funext a b
    exact propext foldAscii_eq_iff.symm
  rw [hkernel]
  exact InvImage.equivalence Eq foldAscii eq_equivalence

/-- Letters outside of `A` to `Z` have no variants. -/
example : CaseVariant "Delete-É" "dELETE-É" ∧ ¬ CaseVariant "É" "é" := by decide +kernel

end CmdletForge.Text
