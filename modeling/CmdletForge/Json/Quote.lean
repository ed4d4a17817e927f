import CmdletForge.Text.Utf8
import CmdletForge.Json.Number

/-!
# CmdletForge.Json.Quote

Texts between double quotes in JSON.

1. A text ends at the first quote that no backslash escapes.  Control characters below U+0020
   may only be escaped.
2. `readQuote` gives the content.  A surrogate escape must be a pair.
3. `skipQuote` only finds the end: an escape needs four hexadecimal digits, but they may spell
   a lone surrogate.
-/

namespace CmdletForge.Json

/-- The value of a hexadecimal digit. -/
def hexValue? (c : Char) : Option Nat :=
  if '0' ≤ c ∧ c ≤ '9' then some (c.toNat - '0'.toNat)
  else if 'a' ≤ c ∧ c ≤ 'f' then some (c.toNat - 'a'.toNat + 10)
  else if 'A' ≤ c ∧ c ≤ 'F' then some (c.toNat - 'A'.toNat + 10)
  else none

/-- The number that four hexadecimal digits spell. -/
def hex4? (a b c d : Char) : Option Nat := do
  return (((← hexValue? a) * 16 + (← hexValue? b)) * 16 + (← hexValue? c)) * 16 + (← hexValue? d)

/-- The fault of an escape whose four hexadecimal digits should stand in front of `cs`. -/
def hexFault (cs : List Char) (offset : Nat) : Fault :=
  if Text.width cs < 4 then ⟨.endInString, offset + Text.width cs⟩ else ⟨.invalidEscape, offset + 4⟩

/-- The character of an escape of one letter. -/
def shortEscape? : Char → Option Char
  | '"' => some '"'
  | '\\' => some '\\'
  | '/' => some '/'
  | 'b' => some (Char.ofNat 0x08)
  | 'f' => some (Char.ofNat 0x0C)
  | 'n' => some '\n'
  | 'r' => some '\r'
  | 't' => some '\t'
  | _ => none

/-- The fault of a character that may not stand unescaped, or of the missing end. -/
def plainFault (c : Char) (offset : Nat) : Option Fault :=
  if c.toNat < 0x20 then some ⟨.controlCharacter, offset + 1⟩ else none

/-- The place after the closing quote. -/
def skipQuote (offset : Nat) : List Char → Except Fault Cursor
  | [] => .error ⟨.endInString, offset⟩
  | '"' :: cs => .ok ⟨cs, offset + 1⟩
  | '\\' :: 'u' :: a :: b :: c :: d :: cs =>
    match hex4? a b c d with
    | some _ => skipQuote (offset + 6) cs
    | none => .error (hexFault (a :: b :: c :: d :: cs) (offset + 2))
  | '\\' :: 'u' :: cs => .error (hexFault cs (offset + 2))
  | '\\' :: c :: cs =>
    if (shortEscape? c).isSome then skipQuote (offset + 2) cs
    else .error ⟨.invalidEscape, offset + 2⟩
  | '\\' :: [] => .error ⟨.endInString, offset + 1⟩
  | c :: cs =>
    match plainFault c offset with
    | some f => .error f
    | none => skipQuote (offset + c.utf8Size) cs

/-- The content up to the closing quote; `acc` is what was read of it, in reverse. -/
def readQuoteFrom (acc : List Char) (offset : Nat) : List Char → Except Fault String
  | [] => .error ⟨.endInString, offset⟩
  | '"' :: _ => .ok (String.ofList acc.reverse)
  | '\\' :: 'u' :: a :: b :: c :: d :: cs =>
    match hex4? a b c d with
    | none => .error (hexFault (a :: b :: c :: d :: cs) (offset + 2))
    | some n =>
      if 0xDC00 ≤ n ∧ n ≤ 0xDFFF then .error ⟨.loneSurrogate, offset + 6⟩
      else if n < 0xD800 ∨ 0xDBFF < n then readQuoteFrom (Char.ofNat n :: acc) (offset + 6) cs
      else
        match cs with
        | [] => .error ⟨.endInString, offset + 6⟩
        | '\\' :: [] => .error ⟨.endInString, offset + 7⟩
        | '\\' :: 'u' :: a' :: b' :: c' :: d' :: cs =>
          match hex4? a' b' c' d' with
          | none => .error (hexFault (a' :: b' :: c' :: d' :: cs) (offset + 8))
          | some low =>
            if low < 0xDC00 ∨ 0xDFFF < low then .error ⟨.loneSurrogate, offset + 12⟩
            else
              let code := (n - 0xD800) * 1024 + (low - 0xDC00) + 0x10000
              readQuoteFrom (Char.ofNat code :: acc) (offset + 12) cs
        | '\\' :: 'u' :: cs => .error (hexFault cs (offset + 8))
        | '\\' :: _ :: _ => .error ⟨.unexpectedEndOfEscape, offset + 8⟩
        | _ :: _ => .error ⟨.unexpectedEndOfEscape, offset + 7⟩
  | '\\' :: 'u' :: cs => .error (hexFault cs (offset + 2))
  | '\\' :: c :: cs =>
    match shortEscape? c with
    | some e => readQuoteFrom (e :: acc) (offset + 2) cs
    | none => .error ⟨.invalidEscape, offset + 2⟩
  | '\\' :: [] => .error ⟨.endInString, offset + 1⟩
  | c :: cs =>
    match plainFault c offset with
    | some f => .error f
    | none => readQuoteFrom (c :: acc) (offset + c.utf8Size) cs

/-- The content of the text whose opening quote has been read. -/
def readQuote (c : Cursor) : Except Fault String := readQuoteFrom [] c.offset c.rest

end CmdletForge.Json
