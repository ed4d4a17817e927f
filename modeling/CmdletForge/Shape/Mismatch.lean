import CmdletForge.Text.Quoted

/-!
# CmdletForge.Shape.Mismatch

Why a well-formed document does not have the shape that was expected, and how messages say it.
-/

namespace CmdletForge

/-- What a document holds in the place of something else. -/
inductive Found where
  | null
  | unit
  | flag (value : Bool)
  | integer (value : Int)
  /-- An integer beyond 64 bits, with the name of the type that holds it. -/
  | wideInteger (value : Int) (typeName : String)
  | fraction (digits : String)
  | text (value : String)
  | sequence
  | map
  deriving DecidableEq, Repr

def Found.message : Found → String
  | .null => "null"
  | .unit => "unit value"
  | .flag value => "boolean `" ++ (if value then "true" else "false") ++ "`"
  | .integer value => "integer `" ++ toString value ++ "`"
  | .wideInteger value typeName => "integer `" ++ toString value ++ "` as " ++ typeName
  | .fraction digits => "floating point `" ++ digits ++ "`"
  | .text value => "string " ++ Text.quoted value
  | .sequence => "sequence"
  | .map => "map"

/-- Why a document does not have the expected shape. -/
inductive Mismatch where
  | invalidType (found : Found) (expected : String)
  | invalidValue (found : Found) (expected : String)
  | invalidLength (length : Nat) (expected : String)
  | unknownVariant (name : String) (known : List String)
  | missingField (name : String)
  | duplicateField (name : String)
  deriving DecidableEq, Repr

/-- The names that a message lists: the only one, both, or `one of` several. -/
def knownNames : List String → String
  | [] => "there are no variants"
  | [a] => "`" ++ a ++ "`"
  | [a, b] => "`" ++ a ++ "` or `" ++ b ++ "`"
  | names => "one of " ++ ", ".intercalate (names.map fun n => "`" ++ n ++ "`")

def Mismatch.message : Mismatch → String
  | .invalidType found expected => "invalid type: " ++ found.message ++ ", expected " ++ expected
  | .invalidValue found expected => "invalid value: " ++ found.message ++ ", expected " ++ expected
  | .invalidLength length expected =>
    "invalid length " ++ toString length ++ ", expected " ++ expected
  | .unknownVariant name known =>
    "unknown variant `" ++ name ++ "`, expected " ++ knownNames known
  | .missingField name => "missing field `" ++ name ++ "`"
  | .duplicateField name => "duplicate field `" ++ name ++ "`"

end CmdletForge
