import CmdletForge.Proofs.Cmdlet.Emissions
import CmdletForge.Proofs.Source.Literals

/-!
# CmdletForge.Proofs.Cmdlet.Validation

The check of a parameter that is parsed as a member of an enumerated type.

1. A check is written exactly when the service defines the type and the first definition of it has
   a member (`parsedBinding_eq_ok_iff`).
2. In the check stands a statement that throws.  Its two literals are read back as a message and
   the name of the parameter (`throws_throwing`), and the message is that of the error which a
   text gets that is no member (`message_of_member`).
-/

namespace CmdletForge.Cmdlet

open Source (Step Writer lineAt readLiteral)
open Source.Step (isEven_line textAt)

/-! ## Types with members -/

/-- The definition of a type that comes first in a service. -/
def DefinesFirst (s : Service) (typeName : String) (t : EnumType) : Prop :=
  ∃ before after, s.enums = before ++ t :: after ∧ t.typeName = typeName ∧
    ∀ u ∈ before, u.typeName ≠ typeName

/-- The definition that is looked up is the first of its name. -/
theorem enum?_eq_some_iff {s : Service} : s.enum? name = some t ↔ DefinesFirst s name t := by
  rw [Service.enum?, List.find?_eq_some_iff_append]
  simp only [decide_eq_true_eq, Bool.not_eq_true', decide_eq_false_iff_not]
  constructor
  · rintro ⟨hname, before, after, henums, hbefore⟩
    exact ⟨before, after, henums, hname, hbefore⟩
  · rintro ⟨before, after, henums, hname, hbefore⟩
    exact ⟨hname, before, after, henums, hbefore⟩

/-- Nothing is looked up when no definition has the name. -/
theorem enum?_eq_none_iff {s : Service} :
    s.enum? name = none ↔ ∀ t ∈ s.enums, t.typeName ≠ name := by
  simp [Service.enum?, List.find?_eq_none]

/-- What parsing needs: a type that is defined and has members. -/
theorem parsedBinding_eq_ok_iff {s : Service} {p : Property} {c : Option Customization} :
    parsedBinding s p c = .ok b ↔
      ∃ t, DefinesFirst s p.typeName t ∧ t.members ≠ [] ∧
        b = .parsed t p.name (parameterName p c) := by
  simp only [← enum?_eq_some_iff]
  unfold parsedBinding
  cases henum : s.enum? p.typeName with
  | none => simp
  | some t =>
    cases hmembers : t.members with
    | nil => simp [hmembers]
    | cons m ms => simp [hmembers, eq_comm]

/-- Why a value cannot be parsed. -/
theorem parsedBinding_eq_error_iff {s : Service} {p : Property} {c : Option Customization} :
    parsedBinding s p c = .error error ↔
      (∀ t ∈ s.enums, t.typeName ≠ p.typeName) ∧ error = .unknownEnum p.typeName p.name s.id ∨
        (∃ t, DefinesFirst s p.typeName t ∧ t.members = []) ∧ error = .emptyEnum p.typeName := by
  simp only [← enum?_eq_none_iff, ← enum?_eq_some_iff]
  unfold parsedBinding
  cases henum : s.enum? p.typeName with
  | none => simp [eq_comm]
  | some t =>
    cases hmembers : t.members with
    | nil => simp [hmembers, eq_comm]
    | cons m ms => simp [hmembers]

/-! ## The text of a check -/

/-- What is read of a statement that throws: a message, and the parameter that it is about. -/
def Throws (statement message parameter : String) : Prop :=
  ∃ arguments parameterArgument,
    statement.toList = "throw new System.ArgumentException(".toList ++ arguments ∧
    readLiteral arguments = some (message.toList, ", ".toList ++ parameterArgument) ∧
    readLiteral parameterArgument = some (parameter.toList, ");".toList)

def throwing (message parameter : String) : Source.Code :=
  ["throw new System.ArgumentException(", .literal message, ", ", .literal parameter, ");"]

/-- **The literals of the statement are read back**, whatever they stand for. -/
theorem throws_throwing (message parameter : String) :
    Throws (throwing message parameter).print message parameter := by
  have hmessage := Source.readLiteral_literal message
    (", ".toList ++ ((Source.literal parameter).toList ++ ");".toList))
  have hparameter := Source.readLiteral_literal parameter ");".toList
  refine ⟨_, _, ?_, hmessage, hparameter⟩
  simp only [throwing, Source.Code.print, Source.Piece.print, String.toList_append,
    String.append_empty]

/-- The lines of a check around the statement that throws. -/
def checkLines (level : Nat) (context typeName property parameter statement : String) :
    List String :=
  [ lineAt level ("if (!string.IsNullOrEmpty(" ++ ("this." ++ parameter) ++ "))"),
    lineAt level "\x7b",
    lineAt (level + 1) "try",
    lineAt (level + 1) "\x7b",
    lineAt (level + 2) (context ++ "." ++ property ++ " = (" ++ typeName ++
      ")System.Enum.Parse(typeof(" ++ typeName ++ "), " ++ ("this." ++ parameter) ++ ", true);"),
    lineAt (level + 1) "\x7d",
    lineAt (level + 1) "catch (System.ArgumentException)",
    lineAt (level + 1) "\x7b",
    lineAt (level + 2) statement,
    lineAt (level + 1) "\x7d",
    lineAt level "\x7d" ]

/-- The lines of a check, as they are printed. -/
theorem textAt_parsing (level : Nat) (context : String) (t : EnumType)
    (property parameter : String) :
    textAt level (Binding.parsing context t property parameter) =
      String.join (checkLines level context t.typeName property parameter
        (throwing (invalidValueMessage t.members) parameter).print) := by
  simp only [Binding.parsing, Step.block, Step.plain, checkLines, throwing, Source.Code.print,
    Source.Piece.print, List.cons_append, List.nil_append, Step.textAt_line_cons,
    Step.textAt_openBlock_cons, Step.textAt_closeBlock_cons, Step.textAt_nil, Nat.add_sub_cancel,
    String.join_cons, String.join_nil, String.append_empty, String.reduceAppend]
  simp only [String.append_assoc, Nat.add_assoc, Nat.reduceAdd]

/-- The error of a text that is no member has the message with all members. -/
theorem message_of_member {t : EnumType} (h : t.member parameter value = .error error) :
    error.message = invalidValueMessage t.members := by
  unfold EnumType.member at h
  split at h
  · contradiction
  · cases h
    rfl

/-! ## The law of validation -/

/-- What is to be said of an emitter that parses, at work on a property. -/
structure ValidationLaw (e : Emitter) (s : Service) (p : Property) (c : Option Customization) :
    Prop where
  /-- There is one parameter, and it has the name that the property has as a parameter. -/
  parameter : (e.declarations s p c).map (·.name) = [parameterName p c]
  /-- A check is written exactly when the first definition of the type has a member. -/
  succeeds : ∀ context w,
    (∃ w', (e.writeBinding context s p c).run w = .ok () w') ↔
      ∃ t, DefinesFirst s p.typeName t ∧ t.members ≠ []
  /-- A failure says what there is none of, and leaves the writer as it was. -/
  fails : ∀ context w error w', (e.writeBinding context s p c).run w = .error error w' →
    w' = w ∧
      ((∀ t ∈ s.enums, t.typeName ≠ p.typeName) ∧ error = .unknownEnum p.typeName p.name s.id ∨
        (∃ t, DefinesFirst s p.typeName t ∧ t.members = []) ∧ error = .emptyEnum p.typeName)
  /-- What is written is the check with a statement that throws.  The message of the statement
  lists all members in order, and it is that of the error which every text gets that is no member
  of a type with these members. -/
  throws : ∀ context w t, DefinesFirst s p.typeName t → t.members ≠ [] →
    ∃ statement message,
      (e.writeBinding context s p c).run w =
        .ok () ⟨w.text ++ String.join (checkLines w.level context p.typeName p.name
          (parameterName p c) statement), w.level⟩ ∧
      Throws statement message (parameterName p c) ∧
      message = "Invalid parameter value; allowable values: " ++ ", ".intercalate t.members ∧
      ∀ (u : EnumType) parameter value error, u.members = t.members →
        u.member parameter value = .error error → error.message = message

/-- An emitter that parses follows the law. -/
theorem validationLaw_of_binding {e : Emitter} {s : Service} {p : Property}
    {c : Option Customization}
    (hparameter : (e.declarations s p c).map (·.name) = [parameterName p c])
    (hbinding : e.binding s p c = parsedBinding s p c) : ValidationLaw e s p c := by
  refine ⟨hparameter, fun context w => ?succeeds, fun context w error w' h => ?fails,
    fun context w t ht hmembers => ?throws⟩
  case succeeds =>
    cases hparsed : parsedBinding s p c with
    | ok b =>
      obtain ⟨t, ht, hmembers, -⟩ := parsedBinding_eq_ok_iff.mp hparsed
      have hwrite := Emitter.writeBinding_of_ok context w (hbinding.trans hparsed)
      exact ⟨fun _ => ⟨t, ht, hmembers⟩, fun _ => ⟨_, hwrite⟩⟩
    | error error =>
      rw [Emitter.writeBinding_of_error context w (hbinding.trans hparsed)]
      constructor
      · rintro ⟨w', hw'⟩
        contradiction
      · rintro ⟨t, ht, hmembers⟩
        rw [parsedBinding_eq_ok_iff.mpr ⟨t, ht, hmembers, rfl⟩] at hparsed
        contradiction
  case fails =>
    cases hparsed : parsedBinding s p c with
    | ok b =>
      rw [Emitter.writeBinding_of_ok context w (hbinding.trans hparsed)] at h
      contradiction
    | error error' =>
      rw [Emitter.writeBinding_of_error context w (hbinding.trans hparsed)] at h
      cases h
      exact ⟨rfl, parsedBinding_eq_error_iff.mp hparsed⟩
  case throws =>
    have hparsed : parsedBinding s p c = .ok (.parsed t p.name (parameterName p c)) :=
      parsedBinding_eq_ok_iff.mpr ⟨t, ht, hmembers, rfl⟩
    refine ⟨_, _, ?_, throws_throwing (invalidValueMessage t.members) (parameterName p c), rfl,
      fun u parameter value error hu h => hu ▸ message_of_member h⟩
    obtain ⟨_, _, -, htype, -⟩ := ht
    rw [Emitter.writeBinding_of_ok context w (hbinding.trans hparsed), Binding.steps,
      textAt_parsing, htype]

/-- **The check in a cmdlet and the error of the library say the same**: a verb or a protocol is
checked when its type has members, with the message and the parameter of the error. -/
theorem validationLaw (s : Service) (p : Property) (c : Option Customization) :
    ValidationLaw .httpVerb s p c ∧ ValidationLaw .protocol s p c :=
  ⟨validationLaw_of_binding rfl rfl, validationLaw_of_binding rfl rfl⟩

end CmdletForge.Cmdlet
