import CmdletForge.Yaml.Fault
import CmdletForge.Yaml.Gap

/-!
# CmdletForge.Yaml.Plain

Scalars without quotes.

1. A plain scalar goes on until a colon before a gap, a comment, a document marker, or a line
   that is not indented further than the collection around it.
2. In a flow collection it also ends at a comma, a bracket or a brace, and a colon directly
   before one of these or a question mark is refused.
-/

namespace CmdletForge.Yaml

/-- The characters that end a plain scalar in a flow collection. -/
def isFlowEnd (c : Char) : Bool := c == ',' || c == '[' || c == ']' || c == '\x7b' || c == '\x7d'

/-- Whether a refused colon stands here in a flow collection. -/
def atLooseColon : List Char → Bool
  | ':' :: c :: _ => isFlowEnd c || c == '?'
  | _ => false

/-- Whether a plain scalar ends within its line here. -/
def atPlainEnd (flow : Bool) : List Char → Bool
  | [] => true
  | c :: cs => isSpaceOrTab c || isBreak c || (c == ':' && atGap cs) || (flow && isFlowEnd c)

/-- The piece of a plain scalar up to a gap or its end, in reverse behind `acc`, and what
follows it. -/
def plainPiece (flow : Bool) (acc : List Char) : List Char → List Char × List Char
  | [] => (acc, [])
  | c :: cs =>
    if (flow && atLooseColon (c :: cs)) || atPlainEnd flow (c :: cs) then (acc, c :: cs)
    else plainPiece flow (c :: acc) cs

/-- A scalar that was read: its text, where it stops, the place after it, and whether a line
break was met behind its last piece. -/
structure Scalar where
  text : List Char
  stop : Mark
  after : Cursor
  broken : Bool

/-- Reads on in a plain scalar whose text so far is `text`, ending at `stop`; `g` is the gap in
front.  Each step takes a character. -/
def plainFrom (flow : Bool) (indent : Int) (start : Mark) (text : List Char) (g : Gap)
    (stop : Mark) (c : Cursor) : (steps : Nat) → Except Fault Scalar
  | 0 => .ok ⟨text, stop, c, g.broken⟩
  | steps + 1 =>
    if c.atDocumentMarker then .ok ⟨text, stop, c, g.broken⟩
    else if c.rest.head? = some '#' then .ok ⟨text, stop, c, g.broken⟩
    else
      let (piece, rest) := plainPiece flow [] c.rest
      let c' : Cursor := { c with rest := rest, mark := c.mark.advance piece.length }
      if flow && atLooseColon rest then
        .error (.within "while scanning a plain scalar" start "found unexpected ':'" c'.mark)
      else
        let (text, g, stop) :=
          if piece.isEmpty then (text, g, stop)
          else (text ++ g.text ++ piece.reverse, Gap.none, c'.mark)
        if rest.isEmpty || !atGap rest then .ok ⟨text, stop, c', g.broken⟩
        else
          match c'.gap indent g c'.steps with
          | .error mark =>
            .error (.within "while scanning a plain scalar" start
              "found a tab character that violates indentation" mark)
          | .ok (g, c) =>
            if !flow && (c.mark.column : Int) < indent then .ok ⟨text, stop, c, g.broken⟩
            else plainFrom flow indent start text g stop c steps

/-- Reads a plain scalar in a collection indented to column `indent - 1`. -/
def Cursor.plain (c : Cursor) (flow : Bool) (indent : Int) : Except Fault Scalar :=
  plainFrom flow indent c.mark [] .none c.mark c c.steps

end CmdletForge.Yaml
