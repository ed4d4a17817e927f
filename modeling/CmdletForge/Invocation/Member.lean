import CmdletForge.Service.Model
import CmdletForge.Text.Basic

/-!
# CmdletForge.Invocation.Member

Members of enumerated types, as texts and switches ask for them.

1. A text is accepted when a member equals it up to the case of the letters `A` to `Z`, and then
   it stands for the first such member.
2. A pair of switches asks for a storage class.  The switch for the standard class is looked at
   first; without either there is no class.
-/

namespace CmdletForge

/-! ## Texts -/

/-- What is said of a text that is none of the members. -/
def invalidValueMessage (members : List String) : String :=
  "Invalid parameter value; allowable values: " ++ ", ".intercalate members

/-- A text that is no member. -/
structure InvalidMember where
  parameter : String
  value : String
  allowed : List String
  deriving DecidableEq, Repr

def InvalidMember.message (e : InvalidMember) : String := invalidValueMessage e.allowed

/-- The member that a text stands for. -/
def EnumType.member (t : EnumType) (parameter value : String) : Except InvalidMember String :=
  match t.members.find? fun m => Text.sameIgnoringCase m value with
  | some m => .ok m
  | none => .error ⟨parameter, value, t.members⟩

/-! ## Switches -/

/-- A storage class. -/
inductive StorageClass where
  | standard
  | reducedRedundancy
  deriving DecidableEq, Repr

namespace StorageClass

/-- The member that a storage class is called by. -/
def member : StorageClass → String
  | .standard => "Standard"
  | .reducedRedundancy => "ReducedRedundancy"

/-- The switch of a storage class. -/
def switch : StorageClass → String
  | .standard => "StandardStorage"
  | .reducedRedundancy => "ReducedRedundancyStorage"

/-- The storage class that switches ask for. -/
def ofSwitches (standard reducedRedundancy : Bool) : Option StorageClass :=
  if standard then some .standard
  else if reducedRedundancy then some .reducedRedundancy
  else none

end StorageClass

end CmdletForge
