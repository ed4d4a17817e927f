import CmdletForge.Xml.Entity

/-!
# CmdletForge.Xml.Block

Elements that are written line by line.

1. An element with a text stands on one line, and its text is escaped.
2. An element with children has a line for each of its tags, and its children stand between them,
   two spaces deeper.
3. A line may also be given as it is.
-/

namespace CmdletForge.Xml

/-- Something that is written in lines. -/
inductive Block where
  /-- An element with a text. -/
  | leaf (name text : String)
  /-- An element with children. -/
  | parent (name : String) (children : List Block)
  /-- A text that is written as it is. -/
  | given (text : String)
  deriving Repr

/-- The spaces in front of a line. -/
def margin (level : Nat) : String := String.ofList (List.replicate (2 * level) ' ')

/-- A start tag without attributes. -/
def startTag (name : String) : String := "<" ++ name ++ ">"

def endTag (name : String) : String := "</" ++ name ++ ">"

/-- A text in which the five characters with names are escaped. -/
def escapeText (s : String) : String := String.ofList (escape s.toList)

mutual

/-- The lines of a block at a level. -/
def Block.print (level : Nat) : Block → String
  | .leaf name text => margin level ++ startTag name ++ escapeText text ++ endTag name ++ "\n"
  | .parent name children =>
    margin level ++ startTag name ++ "\n" ++ Block.printAll (level + 1) children ++
      (margin level ++ endTag name ++ "\n")
  | .given text => margin level ++ text ++ "\n"

/-- The lines of blocks at a level. -/
def Block.printAll (level : Nat) : List Block → String
  | [] => ""
  | b :: rest => b.print level ++ Block.printAll level rest

end

end CmdletForge.Xml
