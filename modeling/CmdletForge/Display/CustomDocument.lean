import CmdletForge.Files.Path
import CmdletForge.Text.Basic
import CmdletForge.Xml.Entity
import CmdletForge.Xml.Markup

/-!
# CmdletForge.Display.CustomDocument

Format documents that are written by hand.

1. The types of a document are the trimmed texts in its `TypeName` elements, each once, in the
   order of the text.  Every run of text between two pieces of markup is one.
2. A view is the slice of the text from a `View` start tag up to the next `View` end tag; start
   tags in between do not count.
3. Slices are taken at the byte offsets of the markup.  With a byte order mark in front they
   begin and end three bytes early, and there is no slice when that is inside of a character.
-/

namespace CmdletForge.Display

/-- A format document that is written by hand. -/
structure CustomDocument where
  path : Path
  /-- The types that its views are for. -/
  typeNames : List String
  /-- Its views, as they are written. -/
  views : List String
  deriving DecidableEq, Repr

namespace CustomDocument

/-- Why a text is no document. -/
inductive Trouble where
  | entity (f : Xml.EntityFault)
  | markup (f : Xml.Fault)
  | openView
  /-- A view would begin or end inside of a character. -/
  | splitCharacter
  deriving DecidableEq, Repr

def Trouble.message : Trouble → String
  | .entity f => f.message
  | .markup f => "error at position " ++ toString f.offset ++ ": " ++ f.trouble.message
  | .openView => "unterminated View element"
  | .splitCharacter => "a view begins or ends inside of a character"

/-! ## Reading -/

/-- What has been read of a document. -/
structure Capture where
  /-- Whether the last tag of a type name opened it. -/
  inTypeName : Bool
  /-- Where the open view begins. -/
  viewStart : Option Nat
  typeNames : List String
  views : List String
  deriving DecidableEq, Repr

def Capture.blank : Capture := ⟨false, none, [], []⟩

/-- Adds the name of a type, unless it is empty or there already. -/
def Capture.addName (k : Capture) (name : String) : Capture :=
  if name.isEmpty ∨ k.typeNames.contains name then k
  else { k with typeNames := k.typeNames ++ [name] }

def typeElement : List Char := "TypeName".toList

def viewElement : List Char := "View".toList

/-- Reads the start tag of the element `name`, which begins at a byte offset. -/
def Capture.startTag (k : Capture) (name : List Char) (offset : Nat) : Capture :=
  if name = typeElement then { k with inTypeName := true }
  else if name = viewElement then { k with viewStart := k.viewStart <|> some offset }
  else k

/-- Reads the end tag of the element `name`, behind which stands the byte offset `stop`. -/
def Capture.endTag (text : List Char) (k : Capture) (name : List Char) (stop : Nat) :
    Except Trouble Capture :=
  if name = typeElement then .ok { k with inTypeName := false }
  else if name = viewElement then
    match k.viewStart with
    | none => .ok k
    | some start =>
      match Text.sliceBytes text start stop with
      | some view =>
        .ok { k with viewStart := none, views := k.views ++ [String.ofList view] }
      | none => .error .splitCharacter
  else .ok k

/-- Reads a piece of the text. -/
def Capture.step (text : List Char) (k : Capture) (p : Xml.Piece) : Except Trouble Capture :=
  match p.event with
  | .start content => .ok (k.startTag (Xml.tagName content) p.start)
  | .finish name => k.endTag text name p.stop
  | .text raw =>
    if k.inTypeName then
      ((Xml.unescape raw).mapError .entity).map fun cs =>
        k.addName (String.ofList (Text.trimChars cs))
    else .ok k
  | _ => .ok k

/-- What a text captures. -/
def capture (text : List Char) : Except Trouble Capture := do
  let (pieces, fault) := Xml.pieces text
  let k ← List.foldlM (Capture.step text) Capture.blank pieces
  match fault with
  | some f => throw (.markup f)
  | none => if k.viewStart.isSome then throw .openView else return k

/-- The document that a text is. -/
def parse (path : Path) (text : String) : Except Trouble CustomDocument :=
  (capture text.toList).map fun k => ⟨path, k.typeNames, k.views⟩

end CustomDocument

end CmdletForge.Display
