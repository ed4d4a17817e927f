import CmdletForge.Invocation.Member
import CmdletForge.Proofs.Text.CaseVariants

/-!
# CmdletForge.Proofs.Invocation.Membership

Which texts are members of an enumerated type, and which member a text stands for.

1. A text stands for the first member that it is a case variant of (`EnumType.member_eq_ok_iff`),
   and is refused when there is none (`EnumType.member_eq_error_iff`).
2. Being a case variant is an equivalence.  So all texts of one class stand for the same member,
   the member stands for itself, and whatever the list is like, with members that are equal, that
   are variants of each other or that are empty, nothing of it is refused (`membershipLaw`).
-/

namespace CmdletForge

open Text (CaseVariant caseVariant_equivalence sameIgnoringCase_iff)

/-- The first of some members that a text is a case variant of. -/
def IsFirstVariant (members : List String) (value m : String) : Prop :=
  ∃ before after, members = before ++ m :: after ∧ CaseVariant m value ∧
    ∀ x ∈ before, ¬ CaseVariant x value

theorem IsFirstVariant.mem (h : IsFirstVariant members value m) : m ∈ members := by
  obtain ⟨before, after, rfl, -⟩ := h
  simp

theorem IsFirstVariant.caseVariant (h : IsFirstVariant members value m) : CaseVariant m value := by
  obtain ⟨_, _, _, hm, _⟩ := h
  exact hm

/-- Variants have the same variants. -/
theorem caseVariant_congr (h : CaseVariant v w) (x : String) :
    CaseVariant x v ↔ CaseVariant x w :=
  ⟨fun hx => caseVariant_equivalence.trans hx h,
    fun hx => caseVariant_equivalence.trans hx (caseVariant_equivalence.symm h)⟩

/-- Variants have the same first variant among some members. -/
theorem isFirstVariant_congr (h : CaseVariant v w) {members : List String} {m : String} :
    IsFirstVariant members v m ↔ IsFirstVariant members w m := by
  simp only [IsFirstVariant, caseVariant_congr h]

namespace EnumType

variable {t : EnumType} {parameter value : String}

/-- **A text stands for the first member that it is a variant of.** -/
theorem member_eq_ok_iff {m : String} :
    t.member parameter value = .ok m ↔ IsFirstVariant t.members value m := by
  have hfind : t.member parameter value = .ok m ↔
      (t.members.find? fun x => Text.sameIgnoringCase x value) = some m := by
    unfold member
    split
    next x hx => simp [hx]
    next hnone => simp [hnone]
  rw [hfind, List.find?_eq_some_iff_append, IsFirstVariant]
  simp only [Bool.not_eq_true', ← Bool.not_eq_true, sameIgnoringCase_iff]
  constructor
  · rintro ⟨hm, before, after, hmembers, hbefore⟩
    exact ⟨before, after, hmembers, hm, hbefore⟩
  · rintro ⟨before, after, hmembers, hm, hbefore⟩
    exact ⟨hm, before, after, hmembers, hbefore⟩

/-- **A text that is a variant of no member is refused**, with all that is needed to say so. -/
theorem member_eq_error_iff {e : InvalidMember} :
    t.member parameter value = .error e ↔
      (∀ m ∈ t.members, ¬ CaseVariant m value) ∧ e = ⟨parameter, value, t.members⟩ := by
  have hnone : (t.members.find? fun x => Text.sameIgnoringCase x value) = none ↔
      ∀ m ∈ t.members, ¬ CaseVariant m value := by
    simp only [List.find?_eq_none, sameIgnoringCase_iff]
  rw [← hnone]
  unfold member
  split
  next x hx => simp [hx]
  next h => simp [h, eq_comm]

/-- A text is accepted when it is a variant of a member, wherever this one stands. -/
theorem exists_member_iff :
    (∃ m, t.member parameter value = .ok m) ↔ ∃ m ∈ t.members, CaseVariant m value := by
  cases hresult : t.member parameter value with
  | ok m =>
    have hm := member_eq_ok_iff.mp hresult
    exact ⟨fun _ => ⟨m, hm.mem, hm.caseVariant⟩, fun _ => ⟨m, rfl⟩⟩
  | error e =>
    obtain ⟨hno, -⟩ := member_eq_error_iff.mp hresult
    constructor
    · rintro ⟨m, hm⟩
      contradiction
    · rintro ⟨m, hmem, hm⟩
      exact absurd hm (hno m hmem)

/-! ## The law of membership -/

/-- What is to be said of the texts that are given for an enumerated type. -/
structure MembershipLaw (t : EnumType) : Prop where
  /-- A text is accepted exactly when a member is a variant of it... -/
  accepts_iff : ∀ parameter value,
    (∃ m, t.member parameter value = .ok m) ↔ ∃ m ∈ t.members, CaseVariant m value
  /-- ...and stands for the first such member. -/
  member_iff : ∀ parameter value m,
    t.member parameter value = .ok m ↔ IsFirstVariant t.members value m
  /-- Variants stand for the same member, or are both refused. -/
  variants : ∀ parameter parameter' v w, CaseVariant v w → ∀ m,
    t.member parameter v = .ok m ↔ t.member parameter' w = .ok m
  /-- The member that a text stands for stands for itself. -/
  again : ∀ parameter parameter' value m, t.member parameter value = .ok m →
    t.member parameter' m = .ok m
  /-- Every member is accepted in any casing, for a variant of it. -/
  complete : ∀ parameter, ∀ m ∈ t.members, ∀ value, CaseVariant value m →
    ∃ m', t.member parameter value = .ok m' ∧ CaseVariant m' m
  /-- A text is refused exactly when no member is a variant of it.  The error has the parameter, the
  text as it was given and all members in order... -/
  refuses_iff : ∀ parameter value e, t.member parameter value = .error e ↔
    (∀ m ∈ t.members, ¬ CaseVariant m value) ∧
      e.parameter = parameter ∧ e.value = value ∧ e.allowed = t.members
  /-- ...and says which these are, with a comma and a space between them. -/
  message : ∀ parameter value e, t.member parameter value = .error e →
    e.message = "Invalid parameter value; allowable values: " ++ ", ".intercalate t.members

/-- **The law of membership.** -/
theorem membershipLaw (t : EnumType) : MembershipLaw t := by
  have hvariants : ∀ parameter parameter' v w, CaseVariant v w → ∀ m,
      t.member parameter v = .ok m ↔ t.member parameter' w = .ok m := by
    intro parameter parameter' v w h m
    rw [member_eq_ok_iff, member_eq_ok_iff, isFirstVariant_congr h]
  refine ⟨fun _ _ => exists_member_iff, fun _ _ _ => member_eq_ok_iff, hvariants, ?again,
    ?complete, ?refuses, ?message⟩
  case again =>
    intro parameter parameter' value m h
    have hm := (member_eq_ok_iff.mp h).caseVariant
    exact (hvariants parameter parameter' value m (caseVariant_equivalence.symm hm) m).mp h
  case complete =>
    intro parameter m hmem value hvalue
    obtain ⟨m', hm'⟩ : ∃ m', t.member parameter value = .ok m' :=
      exists_member_iff.mpr ⟨m, hmem, caseVariant_equivalence.symm hvalue⟩
    have hvariant := (member_eq_ok_iff.mp hm').caseVariant
    exact ⟨m', hm', caseVariant_equivalence.trans hvariant hvalue⟩
  case refuses =>
    intro parameter value e
    obtain ⟨parameter', value', allowed⟩ := e
    rw [member_eq_error_iff, InvalidMember.mk.injEq]
  case message =>
    intro parameter value e h
    obtain ⟨-, rfl⟩ := member_eq_error_iff.mp h
    rfl

/-- Of members that are variants of each other the first one is taken; an empty one is a member. -/
example :
    let t : EnumType := ⟨"Kind", ["Get", "GET", ""]⟩
    t.member "Verb" "GET" = .ok "Get" ∧ t.member "Verb" "" = .ok "" := by
  decide +kernel

end EnumType

end CmdletForge
