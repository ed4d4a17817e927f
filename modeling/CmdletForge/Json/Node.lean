import CmdletForge.Json.Quote

/-!
# CmdletForge.Json.Node

A text read as a JSON tree.

1. Reading never fails: the tree holds what could be read, and where the text stops being JSON
   the innermost open value, and with it every value around it, ends in a `Break`.
2. So whoever walks the tree in the order of the text meets the faults of the text and the
   mismatches of its own in that order.
3. Every value knows the byte offset where it starts and, when it is complete, where it stops.
-/

namespace CmdletForge.Json

/-! ## The tree -/

/-- A value without parts. -/
inductive Leaf where
  | null
  | flag (value : Bool)
  | number (value : Except Fault Number)
  | text (value : Except Fault String)

/-- How a value with parts ends. -/
inductive Ending where
  | closed (stop : Nat)
  | broken (b : Break)

/-- The name of an entry of an object, and the offset of what follows it. -/
structure Key where
  name : Except Fault String
  after : Nat

/-- A value of a text. -/
inductive Node where
  | leaf (start : Nat) (value : Leaf) (stop : Nat)
  | list (start : Nat) (items : List Node) (ending : Ending)
  | object (start : Nat) (keys : List Key) (values : List Node) (ending : Ending)
  | broken (start : Nat) (b : Break)

def Node.start : Node → Nat
  | .leaf start _ _ | .list start _ _ | .object start _ _ _ | .broken start _ => start

def Ending.break? : Ending → Option Break
  | .closed _ => none
  | .broken b => some b

/-- The break that ends a value early. -/
def Node.break? : Node → Option Break
  | .leaf _ _ _ => none
  | .list _ _ ending | .object _ _ _ ending => ending.break?
  | .broken _ b => some b

/-! ## Reading -/

/-- Blanks between the parts of a JSON text. -/
def isSpace (c : Char) : Bool := c == ' ' || c == '\n' || c == '\t' || c == '\r'

def Cursor.skipSpace (c : Cursor) : Cursor :=
  ⟨c.rest.dropWhile isSpace, c.offset + (c.rest.takeWhile isSpace).length⟩

/-- The place after `n` characters of one byte each. -/
def Cursor.advance (c : Cursor) (n : Nat) : Cursor := ⟨c.rest.drop n, c.offset + n⟩

/-- The place after the letters of a word, at whose start the place stands. -/
def readWord (word : List Char) (c : Cursor) : Except Break Cursor :=
  match word with
  | [] => .ok c
  | w :: ws =>
    match c.rest with
    | [] => .error (.both .endInValue c.offset)
    | x :: _ => if x = w then readWord ws (c.advance 1) else .error (.both .expectedIdent c.looking)

def readWordLeaf (word : String) (value : Leaf) (c : Cursor) : Node × Cursor :=
  match readWord word.toList c with
  | .ok c' => (.leaf c.offset value c'.offset, c')
  | .error b => (.broken c.offset b, c)

/-- A quoted text as a leaf, at whose opening quote the place stands. -/
def readTextLeaf (c : Cursor) : Node × Cursor :=
  let inside := c.advance 1
  let content := readQuote inside
  match skipQuote inside.offset inside.rest with
  | .ok c' => (.leaf c.offset (.text content) c'.offset, c')
  | .error f =>
    match content with
    | .error reading => (.broken c.offset ⟨reading, f⟩, c)
    | .ok _ => (.broken c.offset ⟨f, f⟩, c)

def readNumberLeaf (c : Cursor) : Node × Cursor :=
  match readNumeral c with
  | .ok (numeral, c') => (.leaf c.offset (.number (numeral.value c'.offset)) c'.offset, c')
  | .error b => (.broken c.offset b, c)

/-- What stands between two parts of a list or object, or before its first one: its end, a
break, or the next part. -/
inductive Between where
  | finish (c : Cursor)
  | stop (b : Break)
  | part (c : Cursor)

def betweenItems (first : Bool) (c : Cursor) : Between :=
  let c := c.skipSpace
  match c.rest with
  | [] => .stop (.both .endInList c.offset)
  | ']' :: _ => .finish (c.advance 1)
  | ',' :: _ =>
    if first then .part c
    else
      let c := (c.advance 1).skipSpace
      match c.rest with
      | [] => .stop (.both .endInValue c.offset)
      | ']' :: _ => .stop ⟨⟨.trailingComma, c.looking⟩, ⟨.expectedValue, c.looking⟩⟩
      | _ => .part c
  | _ => if first then .part c else .stop (.both .expectedListCommaOrEnd c.looking)

def betweenEntries (first : Bool) (c : Cursor) : Between :=
  let c := c.skipSpace
  match c.rest with
  | [] => .stop (.both .endInObject c.offset)
  | '\x7d' :: _ => .finish (c.advance 1)
  | '"' :: _ => if first then .part c else .stop (.both .expectedObjectCommaOrEnd c.looking)
  | ',' :: _ =>
    if first then .stop (.both .keyMustBeString c.looking)
    else
      let c := (c.advance 1).skipSpace
      match c.rest with
      | [] => .stop ⟨⟨.endInValue, c.offset⟩, ⟨.endInObject, c.offset⟩⟩
      | '"' :: _ => .part c
      | '\x7d' :: _ => .stop ⟨⟨.trailingComma, c.looking⟩, ⟨.keyMustBeString, c.looking⟩⟩
      | _ => .stop (.both .keyMustBeString c.looking)
  | _ =>
    if first then .stop (.both .keyMustBeString c.looking)
    else .stop (.both .expectedObjectCommaOrEnd c.looking)

/-- The key of an entry, at whose opening quote the place stands, and the place after it and
its blanks; or the break inside of it. -/
def readKey (c : Cursor) : Except Break (Key × Cursor) :=
  let inside := c.advance 1
  let content := readQuote inside
  match skipQuote inside.offset inside.rest with
  | .ok c' =>
    let c' := c'.skipSpace
    let after := match c'.rest with
      | '\x7d' :: _ => c'.offset + 1
      | _ => c'.offset
    .ok (⟨content, after⟩, c')
  | .error f =>
    match content with
    | .error reading => .error ⟨reading, f⟩
    | .ok _ => .error ⟨f, f⟩

/-- The place after the colon of an entry. -/
def readColon (c : Cursor) : Except Break Cursor :=
  match c.rest with
  | ':' :: _ => .ok (c.advance 1)
  | [] => .error (.both .endInObject c.offset)
  | _ => .error (.both .expectedColon c.looking)

mutual

/-- The value at a place, and the place after it.  Every value takes at least one character,
so as many `steps` as there are characters suffice. -/
def readNode (steps : Nat) (c : Cursor) : Node × Cursor :=
  let c := c.skipSpace
  match steps, c.rest with
  | _, [] => (.broken c.offset (.both .endInValue c.offset), c)
  | 0, _ => (.broken c.offset (.both .expectedValue c.looking), c)
  | steps + 1, x :: _ =>
    if x = 'n' then readWordLeaf "null" .null c
    else if x = 't' then readWordLeaf "true" (.flag true) c
    else if x = 'f' then readWordLeaf "false" (.flag false) c
    else if x = '"' then readTextLeaf c
    else if x = '-' ∨ x.isDigit then readNumberLeaf c
    else if x = '[' then
      let (items, ending, c') := readItems steps true (c.advance 1)
      (.list c.offset items ending, c')
    else if x = '\x7b' then
      let (keys, values, ending, c') := readEntries steps true (c.advance 1)
      (.object c.offset keys values ending, c')
    else (.broken c.offset (.both .expectedValue c.looking), c)

/-- The items of a list, how it ends, and the place after it. -/
def readItems (steps : Nat) (first : Bool) (c : Cursor) : List Node × Ending × Cursor :=
  match betweenItems first c with
  | .finish c => ([], .closed c.offset, c)
  | .stop b => ([], .broken b, c)
  | .part c =>
    match steps with
    | 0 => ([], .broken (.both .expectedValue c.looking), c)
    | steps + 1 =>
      let (item, c) := readNode steps c
      match item.break? with
      | some b => ([item], .broken b, c)
      | none =>
        let (items, ending, c) := readItems steps false c
        (item :: items, ending, c)

/-- The keys and values of an object, how it ends, and the place after it. -/
def readEntries (steps : Nat) (first : Bool) (c : Cursor) :
    List Key × List Node × Ending × Cursor :=
  match betweenEntries first c with
  | .finish c => ([], [], .closed c.offset, c)
  | .stop b => ([], [], .broken b, c)
  | .part c =>
    match steps with
    | 0 => ([], [], .broken (.both .keyMustBeString c.looking), c)
    | steps + 1 =>
      match readKey c with
      | .error b => ([], [], .broken b, c)
      | .ok (key, c) =>
        match readColon c with
        | .error b => ([key], [.broken c.offset b], .broken b, c)
        | .ok c =>
          let (value, c) := readNode steps c
          match value.break? with
          | some b => ([key], [value], .broken b, c)
          | none =>
            let (keys, values, ending, c) := readEntries steps false c
            (key :: keys, value :: values, ending, c)

end

/-- A text: its value, and the fault of what follows it. -/
structure Document where
  root : Node
  trailing : Option Fault

def Document.ofText (text : String) : Document :=
  let cs := text.toList
  let (root, c) := readNode (cs.length + 1) ⟨cs, 0⟩
  let c := c.skipSpace
  ⟨root, if c.rest.isEmpty then none else some ⟨.trailingCharacters, c.looking⟩⟩

end CmdletForge.Json
