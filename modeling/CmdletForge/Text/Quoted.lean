import CmdletForge.Text.Printable

/-!
# CmdletForge.Text.Quoted

Texts shown between double quotes in messages.

1. A quote and a backslash get a backslash; line feed, carriage return, tab and the zero
   character have the short forms `\\n`, `\\r`, `\\t` and `\\0`.
2. Any other character that does not show on its own is written `\\u` with its code point in
   small hexadecimal digits between braces.
3. File names also give an apostrophe a backslash.
-/

namespace CmdletForge.Text

/-- The digits of `n` in base sixteen, small letters, at least one digit. -/
def hex (n : Nat) : List Char := Nat.toDigits 16 n

/-- The code-point form of a character: its hexadecimal digits between braces. -/
def codePointForm (c : Char) : List Char :=
  '\\' :: 'u' :: '\x7b' :: hex c.toNat ++ ['\x7d']

/-- How one character is shown between quotes; `quoteApostrophe` tells whether an apostrophe
gets a backslash. -/
def quotedChar (quoteApostrophe : Bool) (c : Char) : List Char :=
  if c = '"' then ['\\', '"']
  else if c = '\\' then ['\\', '\\']
  else if c = '\n' then ['\\', 'n']
  else if c = '\r' then ['\\', 'r']
  else if c = '\t' then ['\\', 't']
  else if c = Char.ofNat 0 then ['\\', '0']
  else if c = '\'' then (if quoteApostrophe then ['\\', '\''] else ['\''])
  else if isPrintable c then [c]
  else codePointForm c

/-- A text shown between double quotes. -/
def quoted (s : String) : String :=
  String.ofList ('"' :: s.toList.flatMap (quotedChar false) ++ ['"'])

/-- A file name shown between double quotes. -/
def quotedPath (s : String) : String :=
  String.ofList ('"' :: s.toList.flatMap (quotedChar true) ++ ['"'])

end CmdletForge.Text
