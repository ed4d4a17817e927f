/-!
# CmdletForge.Source.Literal

String literals of C#.

1. A literal stands between quotes.  Five characters are escaped in it: the quote, the backslash,
   the line feed, the carriage return and the tab.  All others stand for themselves.
2. `readLiteral` reads one literal back from the front of a text.
-/

namespace CmdletForge.Source

/-! ## Writing -/

/-- The letter behind the backslash of an escaped character. -/
def escapeLetter? : Char → Option Char
  | '"' => some '"'
  | '\\' => some '\\'
  | '\n' => some 'n'
  | '\r' => some 'r'
  | '\t' => some 't'
  | _ => none

def literalChar (c : Char) : List Char :=
  match escapeLetter? c with
  | some letter => ['\\', letter]
  | none => [c]

/-- The characters between the quotes of a literal. -/
def literalBody (cs : List Char) : List Char := cs.flatMap literalChar

/-- A text as a literal. -/
def literal (s : String) : String := String.ofList ('"' :: literalBody s.toList ++ ['"'])

/-! ## Reading -/

/-- The character that a letter behind a backslash stands for. -/
def escaped? : Char → Option Char
  | '"' => some '"'
  | '\\' => some '\\'
  | 'n' => some '\n'
  | 'r' => some '\r'
  | 't' => some '\t'
  | _ => none

/-- Reads up to the closing quote: the characters that the literal stands for, and what follows
the quote. -/
def readBody : List Char → Option (List Char × List Char)
  | [] => none
  | '"' :: rest => some ([], rest)
  | '\\' :: letter :: rest => do
    let c ← escaped? letter
    let (cs, after) ← readBody rest
    return (c :: cs, after)
  | c :: rest => do
    let (cs, after) ← readBody rest
    return (c :: cs, after)

/-- Reads a literal at the front: what it stands for, and what follows it. -/
def readLiteral : List Char → Option (List Char × List Char)
  | '"' :: rest => readBody rest
  | _ => none

end CmdletForge.Source
