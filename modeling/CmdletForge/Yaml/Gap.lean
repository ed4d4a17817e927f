import CmdletForge.Yaml.Cursor

/-!
# CmdletForge.Yaml.Gap

Blanks and line breaks inside of a scalar that may run over several lines.

1. Blanks within a line stay as they are.
2. With a line break the blanks around it are dropped.  One line feed becomes a space; of
   several breaks the first is dropped, unless it is a line or paragraph separator.
-/

namespace CmdletForge.Yaml

/-- The blanks and breaks between two pieces of a scalar. -/
structure Gap where
  blanks : List Char
  /-- Whether a break was met, or one that was escaped. -/
  broken : Bool
  first : List Char
  more : List Char
  deriving DecidableEq, Repr

def Gap.none : Gap := ⟨[], false, [], []⟩

/-- A break that was escaped: it leaves nothing behind. -/
def Gap.escaped : Gap := ⟨[], true, [], []⟩

def Gap.text (g : Gap) : List Char :=
  if g.broken then
    match g.first with
    | '\n' :: _ => if g.more.isEmpty then [' '] else g.more
    | first => first ++ g.more
  else g.blanks

def Gap.addBlank (g : Gap) (c : Char) : Gap :=
  if g.broken then g else { g with blanks := g.blanks ++ [c] }

def Gap.addBreak (g : Gap) (text : List Char) : Gap :=
  if g.broken then { g with more := g.more ++ text } else ⟨[], true, text, []⟩

/-- The gap at a place, begun by `g`, and the place after it; in a broken line a tab before
column `indent` is refused, and its place is the error.  Each step takes a character. -/
def Cursor.gap (c : Cursor) (indent : Int) (g : Gap) : (steps : Nat) → Except Mark (Gap × Cursor)
  | 0 => .ok (g, c)
  | steps + 1 =>
    match c.rest with
    | [] => .ok (g, c)
    | x :: _ =>
      if isSpaceOrTab x then
        if x = '\t' ∧ g.broken ∧ (c.mark.column : Int) < indent then .error c.mark
        else (c.skip 1).gap indent (g.addBlank x) steps
      else
        match c.line? with
        | some (text, c) => c.gap indent (g.addBreak text) steps
        | none => .ok (g, c)

end CmdletForge.Yaml
