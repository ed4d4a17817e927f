import CmdletForge.Cmdlet.Binding
import CmdletForge.Proofs.Source.Writing

/-!
# CmdletForge.Proofs.Cmdlet.Emissions

What emitters do to a writer.

1. The steps of a parameter and of a binding are even, whatever the emitter: every block that they
   open they close.
2. So an emitter puts a text behind what is written and leaves the level as it was
   (`writeParameters_eq`, `writeBinding_of_ok`).  An emitter that fails leaves the writer as it was
   (`writeBinding_of_error`).
-/

namespace CmdletForge.Cmdlet

open Source (Code Step Writer)
open Source.Step (IsEven isEven_line isEven_nil levelAt textAt)

/-! ## Even steps -/

namespace Declaration

/-- The summary of a declaration is at one level. -/
theorem isEven_comment (d : Declaration) : IsEven d.comment :=
  (((isEven_line _).line_cons _).append (Step.isEven_map_line _ _)).append
    ((isEven_line _).line_cons _)

/-- The parameter attributes are at one level. -/
theorem isEven_parameterAttributes (d : Declaration) : IsEven d.parameterAttributes := by
  unfold parameterAttributes
  split
  · refine IsEven.line_cons _ ?_
    split
    · exact isEven_line _
    · exact isEven_nil
  · exact isEven_line _

theorem isEven_constantsAttribute (d : Declaration) : IsEven d.constantsAttribute := by
  unfold constantsAttribute
  split
  · exact isEven_line _
  · exact isEven_nil

theorem isEven_aliasAttribute (d : Declaration) : IsEven d.aliasAttribute := by
  unfold aliasAttribute
  split
  · exact isEven_nil
  · exact isEven_line _

/-- The region of a parameter is even. -/
theorem isEven_steps (d : Declaration) : IsEven d.steps :=
  IsEven.region _ <|
    (((d.isEven_comment.append d.isEven_parameterAttributes).append
      d.isEven_constantsAttribute).append d.isEven_aliasAttribute).append (isEven_line _)

end Declaration

namespace Binding

/-- The binding that parses a value closes what it opens. -/
theorem isEven_parsing (context : String) (type : EnumType) (property parameter : String) :
    IsEven (parsing context type property parameter) :=
  IsEven.line_cons _ <| IsEven.block <| IsEven.append
    (((isEven_line _).append (isEven_line _).block).append (isEven_line _)) (isEven_line _).block

/-- The binding that chooses a storage class closes what it opens. -/
theorem isEven_choosing (context typeName property keyword : String) (k : StorageClass) :
    IsEven (choosing context typeName property keyword k) :=
  IsEven.line_cons _ (isEven_line _).block

/-- The statements of a binding are even. -/
theorem isEven_steps (context : String) (b : Binding) : IsEven (b.steps context) := by
  cases b with
  | absent => exact isEven_nil
  | assigned property parameter => exact isEven_line _
  | parsed type property parameter => exact isEven_parsing context type property parameter
  | chosen typeName property =>
    exact (isEven_choosing context typeName property _ _).append
      (isEven_choosing context typeName property _ _)

end Binding

namespace Emitter

variable (e : Emitter) (s : Service) (p : Property) (c : Option Customization)

/-- The declarations of an emitter close what they open. -/
theorem isEven_declarations : IsEven ((e.declarations s p c).flatMap Declaration.steps) :=
  Step.isEven_flatMap fun d _ => d.isEven_steps

/-! ## Writing -/

/-- Parameters are put behind what is written. -/
theorem writeParameters_eq (w : Writer) :
    e.writeParameters s p c w =
      ⟨w.text ++ textAt w.level ((e.declarations s p c).flatMap Declaration.steps), w.level⟩ := by
  rw [writeParameters, Step.writeAll_eq, e.isEven_declarations s p c]

section
variable {e s p c} (context : String) (w : Writer)

/-- A binding is put behind what is written... -/
theorem writeBinding_of_ok (h : e.binding s p c = .ok b) :
    (e.writeBinding context s p c).run w =
      .ok () ⟨w.text ++ textAt w.level (b.steps context), w.level⟩ := by
  have hwrite : (e.writeBinding context s p c).run w =
      .ok () (Step.writeAll w (b.steps context)) := by
    rw [writeBinding, h]
    rfl
  rw [hwrite, Step.writeAll_eq, b.isEven_steps context]

/-- ...and where there is none the writer stays as it is. -/
theorem writeBinding_of_error (h : e.binding s p c = .error error) :
    (e.writeBinding context s p c).run w = .error error w := by
  rw [writeBinding, h]
  rfl

end

end Emitter

end CmdletForge.Cmdlet
