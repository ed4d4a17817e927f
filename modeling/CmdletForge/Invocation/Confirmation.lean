/-!
# CmdletForge.Invocation.Confirmation

The text that a confirmation shows of the values that it is about.

1. Of one name the value is shown, and of a sequence its first ten elements.
2. Of several names the values are joined and cut after a hundred characters; but as soon as one
   of them has a sequence, only the first name counts.
3. A value that cannot be shown makes the text fail, and then a general description stands in
   its place.
-/

namespace CmdletForge.Confirmation

/-- What comes of showing a value: a text, or a part of one and then a failure. -/
inductive Shown where
  | whole (text : String)
  | broken (part : String)
  deriving DecidableEq, Repr

/-- A value that is bound to a parameter. -/
inductive Value where
  | null
  | scalar (value : Shown)
  /-- The elements; those that are absent are nulls. -/
  | sequence (elements : List (Option Shown))
  deriving DecidableEq, Repr

/-- The values that are bound to parameters, by their names. -/
abbrev Bound := String → Option Value

/-- The most elements of a sequence that are shown. -/
def mostElements : Nat := 10

/-- The most characters of several values that are shown. -/
def mostCharacters : Nat := 100

/-- A value of the parameter could not be shown. -/
structure Failure where
  parameter : String
  deriving DecidableEq, Repr

namespace Failure

def message (f : Failure) : String :=
  "unable to render the value bound to parameter " ++ f.parameter

/-- What is said in place of the values. -/
def fallback (f : Failure) : String := "the values bound to the parameter " ++ f.parameter

end Failure

namespace Value

/-- Whether a value is a sequence. -/
def isSequence : Value → Bool
  | .sequence _ => true
  | _ => false

/-- A short description that shows nothing of the value. -/
def outline : Value → String
  | .null => "Null"
  | .scalar _ => "Scalar(..)"
  | .sequence elements => "Sequence(len = " ++ toString elements.length ++ ")"

end Value

/-! ## Texts -/

/-- The text of a value of the parameter `name`. -/
def Shown.text (name : String) : Shown → Except Failure String
  | .whole text => .ok text
  | .broken _ => .error ⟨name⟩

def elementText (name : String) : Option Shown → Except Failure String
  | some value => value.text name
  | none => .ok "null"

/-- What is said of the elements that are not shown. -/
def remainder (count : Nat) : String :=
  if mostElements < count then " (plus " ++ toString (count - mostElements) ++ " more)" else ""

/-- The text of what is bound to one name. -/
def oneText (name : String) : Option Value → Except Failure String
  | none | some .null => .ok ""
  | some (.scalar value) => value.text name
  | some (.sequence elements) => do
    let texts ← (elements.take mostElements).mapM (elementText name)
    return ", ".intercalate texts ++ remainder elements.length

def scalarTexts (bound : Bound) : List String → Except Failure (List String)
  | [] => .ok []
  | name :: rest =>
    match bound name with
    | some (.scalar value) => do
      let text ← value.text name
      return text :: (← scalarTexts bound rest)
    | _ => scalarTexts bound rest

/-- A text that is cut when it is too long. -/
def cut (s : String) : String :=
  let cs := s.toList
  if mostCharacters < cs.length then String.ofList (cs.take mostCharacters ++ "...".toList) else s

/-- The text of the values that are bound to names, when they can be shown. -/
def text? (names : List String) (bound : Option Bound) : Except Failure String :=
  match names, bound with
  | [], _ | _, none => .ok ""
  | first :: others, some bound =>
    if others.isEmpty ∨ names.any fun name => (bound name).any Value.isSequence then
      oneText first (bound first)
    else (scalarTexts bound names).map fun texts => cut ("-".intercalate texts)

/-- The text of the values that are bound to names. -/
def text (names : List String) (bound : Option Bound) : String :=
  match text? names bound with
  | .ok s => s
  | .error f => f.fallback

end CmdletForge.Confirmation
