import CmdletForge.Xml.Entity
import CmdletForge.Xml.Markup

/-!
# CmdletForge.Xml.Tree

XML texts as trees of elements and texts.

1. Comments and instructions do not count: texts and CDATA sections that only they separate are
   one text.
2. Blanks are dropped in front of such a text and behind it, but not those of a CDATA section,
   and a text of blanks alone is none.  Entities are read after that.
3. Where the text ends early, by a fault or with open elements, the tree holds a `cut` node, and
   with it ends every element that was open.
-/

namespace CmdletForge.Xml

/-! ## Runs of text -/

/-- A piece of a text: one in which entities are read, or one that stands for itself. -/
inductive Part where
  | raw (cs : List Char)
  | plain (cs : List Char)
  deriving DecidableEq, Repr

/-- What is left of a text without comments and instructions. -/
inductive Item where
  | start (tag : List Char)
  | finish
  | text (parts : List Part)
  | break_
  deriving DecidableEq, Repr

/-- Puts a part of a text in front of what follows it. -/
def addPart (p : Part) : List Item → List Item
  | .text parts :: rest => .text (p :: parts) :: rest
  | items => .text [p] :: items

/-- The items of pieces; `fresh` tells whether a text that begins here begins a run. -/
def items (fresh : Bool) : List Piece → List Item
  | [] => []
  | p :: rest =>
    match p.event with
    | .text raw =>
      let cs := if fresh then raw.dropWhile isSpace else raw
      if cs.isEmpty then items fresh rest else addPart (.raw cs) (items false rest)
    | .cdata cs => addPart (.plain cs) (items false rest)
    | .start tag => .start tag :: items true rest
    | .empty tag => .start tag :: .finish :: items true rest
    | .finish _ => .finish :: items true rest
    | .doctype => .break_ :: items true rest
    | .aside => items fresh rest

/-- The characters that a run of text stands for. -/
def runText : List Part → Except EntityFault (List Char)
  | [] => .ok []
  | [.raw cs] => unescape (trimEnd cs)
  | .raw cs :: rest => do return (← unescape cs) ++ (← runText rest)
  | .plain cs :: rest => do return cs ++ (← runText rest)

/-! ## Trees -/

/-- A part of an XML text. -/
inductive Node where
  | text (content : Except EntityFault (List Char))
  /-- An element: its tag, and what it holds. -/
  | element (tag : List Char) (children : List Node)
  | cut

/-- Puts the nodes that are still open into each other; the innermost come first. -/
def closeAll (nodes : List Node) : List (List Char × List Node) → List Node
  | [] => (.cut :: nodes).reverse
  | (tag, before) :: outer => closeAll (.element tag (.cut :: nodes).reverse :: before) outer

/-- The nodes of items; `nodes` are those before them in the present element, the last one
first, and `outer` the tags of the open elements with the nodes before them. -/
def nodesFrom (nodes : List Node) (outer : List (List Char × List Node)) : List Item → List Node
  | [] => closeAll nodes outer
  | .text parts :: rest => nodesFrom (.text (runText parts) :: nodes) outer rest
  | .break_ :: rest => nodesFrom nodes outer rest
  | .start tag :: rest => nodesFrom [] ((tag, nodes) :: outer) rest
  | .finish :: rest =>
    match outer with
    | (tag, before) :: outer => nodesFrom (.element tag nodes.reverse :: before) outer rest
    | [] => nodesFrom nodes [] rest

/-- A text as a tree. -/
structure Document where
  /-- What stands outside of all elements, and the elements; a cut ends it. -/
  nodes : List Node
  fault : Option Fault

def Document.ofText (text : String) : Document :=
  let (pieces, fault) := pieces text.toList
  ⟨nodesFrom [] [] (items true pieces), fault⟩

mutual

/-- Whether a node is cut off somewhere. -/
def Node.isCut : Node → Bool
  | .cut => true
  | .element _ children => anyCut children
  | .text _ => false

/-- Whether one of several nodes is cut off somewhere. -/
def anyCut : List Node → Bool
  | [] => false
  | n :: rest => n.isCut || anyCut rest

end

end CmdletForge.Xml
