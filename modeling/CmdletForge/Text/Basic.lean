/-!
# CmdletForge.Text.Basic

White space, lines, case and order of texts.

1. A character is *blank* when Unicode gives it the property `White_Space`.
2. `trim` removes blanks from both ends and nothing else.
3. A line ends at a line feed; a carriage return directly before that line feed
   belongs to the line end.  A text that ends with a line feed has no empty last line.
4. The case of the letters `A` to `Z` can be left aside.  All other characters compare exactly.
5. Texts are ordered by their characters, which is also the order of their UTF-8 bytes.
-/

namespace CmdletForge.Text

/-! ## The blank class -/

/-- Characters with the Unicode property `White_Space`. -/
def isBlank (c : Char) : Bool :=
  let n := c.toNat
  (0x09 ≤ n && n ≤ 0x0D) || n == 0x20 || n == 0x85 || n == 0xA0 || n == 0x1680 ||
    (0x2000 ≤ n && n ≤ 0x200A) || n == 0x2028 || n == 0x2029 || n == 0x202F ||
    n == 0x205F || n == 0x3000

/-! ## Trimming -/

/-- Characters without the blanks at their front. -/
def trimStart (cs : List Char) : List Char := cs.dropWhile isBlank

/-- Characters without the blanks at their end. -/
def trimEnd (cs : List Char) : List Char := (cs.reverse.dropWhile isBlank).reverse

/-- Characters without the blanks at both ends. -/
def trimChars (cs : List Char) : List Char := trimEnd (trimStart cs)

/-- A text without the blanks at both ends. -/
def trim (s : String) : String := String.ofList (trimChars s.toList)

/-! ## Lines -/

/-- Drops one carriage return from the end of reversed characters. -/
def dropReturn : List Char → List Char
  | '\r' :: cs => cs
  | cs => cs

/-- The lines of `cs`, with `acc` the reversed start of the current one. -/
def linesFrom (acc : List Char) : List Char → List (List Char)
  | [] => if acc.isEmpty then [] else [acc.reverse]
  | '\n' :: cs => (dropReturn acc).reverse :: linesFrom [] cs
  | c :: cs => linesFrom (c :: acc) cs

/-- The lines of a text, without their line ends. -/
def lines (s : String) : List String := (linesFrom [] s.toList).map String.ofList

/-! ## Splitting -/

/-- The pieces of `cs` between the separators `sep`, with `acc` the reversed start of the
current piece.  There is always one piece more than there are separators. -/
def splitFrom (sep : Char) (acc : List Char) : List Char → List (List Char)
  | [] => [acc.reverse]
  | c :: cs => if c = sep then acc.reverse :: splitFrom sep [] cs else splitFrom sep (c :: acc) cs

/-- The pieces of a text between the separators `sep`. -/
def split (sep : Char) (s : String) : List String := (splitFrom sep [] s.toList).map String.ofList

/-! ## Case -/

/-- The small letter for a capital one of `A` to `Z`; any other character itself. -/
def lowerAscii (c : Char) : Char :=
  if 'A' ≤ c ∧ c ≤ 'Z' then Char.ofNat (c.toNat + 32) else c

/-- The characters of a text with the letters `A` to `Z` made small. -/
def foldAscii (s : String) : List Char := s.toList.map lowerAscii

/-- Whether two texts are equal up to the case of the letters `A` to `Z`. -/
def sameIgnoringCase (a b : String) : Bool := foldAscii a == foldAscii b

/-! ## Order -/

/-- Whether one text comes before another or is the same. -/
def le (a b : String) : Bool := !(b < a)

/-- The different texts of a list, in their order. -/
def sortedSet (xs : List String) : List String := (xs.mergeSort le).eraseDups

/-- Pairs in the order of their names; pairs of the same name keep theirs. -/
def sortByName {α : Type} (pairs : List (String × α)) : List (String × α) :=
  pairs.mergeSort fun a b => le a.1 b.1

end CmdletForge.Text
