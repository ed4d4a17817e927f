import CmdletForge.Yaml.Cursor

/-!
# CmdletForge.Yaml.Token

The tokens of a YAML text.
-/

namespace CmdletForge.Yaml

/-- How a scalar is written. -/
inductive Style where
  | plain
  | singleQuoted
  | doubleQuoted
  | literal
  | folded
  deriving DecidableEq, Repr

/-- What a token is. -/
inductive Kind where
  | streamStart
  | streamEnd
  | version (major minor : Nat)
  | tagHandle (handle start : String)
  | documentStart
  | documentEnd
  | blockSequenceStart
  | blockMappingStart
  | blockEnd
  | flowSequenceStart
  | flowSequenceEnd
  | flowMappingStart
  | flowMappingEnd
  | blockEntry
  | flowEntry
  | key
  | value
  | alias (name : String)
  | anchor (name : String)
  | tag (handle suffix : String)
  | scalar (text : String) (style : Style)
  deriving DecidableEq, Repr

/-- A token and where it starts and stops. -/
structure Token where
  kind : Kind
  start : Mark
  stop : Mark
  deriving DecidableEq, Repr

end CmdletForge.Yaml
