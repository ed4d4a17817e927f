import CmdletForge.Shape.Basic
import CmdletForge.Shape.Mismatch
import CmdletForge.Json.Node

/-!
# CmdletForge.Json.Typed

JSON texts read as values of a shape.

1. The text is walked from its start to its end, and the first fault or mismatch ends the
   reading.
2. Only something optional may be `null`.
3. A record may be written as an object or as a list of its fields in order, of which the last
   ones may be missing when they have defaults.
4. An object may have unknown fields, which are skipped, but no known field twice.  In a table
   the last value of a name counts.
-/

namespace CmdletForge.Json

/-- Why a text cannot be read as a value of a shape. -/
inductive Error where
  | fault (f : Fault)
  | mismatch (m : Mismatch) (offset : Nat)

/-- What a node holds, for a message; or the fault that is met in finding out.  With it goes
the offset at which the message stands. -/
def Node.found : Node → Except Fault (Found × Nat)
  | .leaf _ .null stop => .ok (.null, stop)
  | .leaf _ (.flag b) stop => .ok (.flag b, stop)
  | .leaf _ (.number n) stop => n.map fun
    | .natural n => (.integer n, stop)
    | .negative n => (.integer (-(n : Int)), stop)
    | .fraction minus x => (.fraction (fractionText minus x), stop)
  | .leaf _ (.text s) stop => s.map fun s => (.text s, stop)
  | .list start _ _ => .ok (.sequence, start)
  | .object start _ _ _ => .ok (.map, start)
  | .broken _ b => .error b.reading

/-- The error of a node in the place of something else. -/
def Node.unexpected (n : Node) (expected : String) : Error :=
  match n.found with
  | .ok (found, offset) => .mismatch (.invalidType found expected) offset
  | .error f => .fault f

/-- Passes over a node whose content does not matter. -/
def Node.skip (n : Node) : Except Error Unit :=
  match n.break? with
  | some b => .error (.fault b.skipping)
  | none => .ok ()

def Ending.stop : Ending → Except Error Nat
  | .closed stop => .ok stop
  | .broken b => .error (.fault b.reading)

/-- The fault of what follows the last field of a record written as a list. -/
def afterLast (f : Fault) : Fault :=
  match f.trouble with
  | .expectedListCommaOrEnd | .endInValue => ⟨.trailingCharacters, f.offset⟩
  | _ => f

/-- The offset of the fault at an item that should not be there. -/
def Node.lookingAt : Node → Nat
  | .broken start b => if b.reading.offset = start then start else start + 1
  | n => n.start + 1

mutual

/-- Reads a node as a value of a shape. -/
def readShape : (s : Shape) → Node → Except Error s.Value
  | .text, n =>
    match n with
    | .leaf _ (.text s) _ => s.mapError .fault
    | n => .error (n.unexpected "a string")
  | .flag, n =>
    match n with
    | .leaf _ (.flag b) _ => .ok b
    | n => .error (n.unexpected "a boolean")
  | .count, n =>
    match n with
    | .leaf _ (.number (.ok (.natural k))) _ => .ok (k : Nat)
    | .leaf _ (.number (.ok (.negative k))) stop =>
      .error (.mismatch (.invalidValue (.integer (-(k : Int))) Shape.count.expected) stop)
    | n => .error (n.unexpected Shape.count.expected)
  | .optional s, n =>
    match n with
    | .leaf _ .null _ => .ok none
    | n => (readShape s n).map some
  | .list s, n =>
    match n with
    | .list _ items ending => do
      let values ← items.mapM fun item => readShape s item
      let _ ← ending.stop
      return values
    | n => .error (n.unexpected "a sequence")
  | .table s, n =>
    match n with
    | .object _ keys values ending => do
      let table ← List.foldlM
        (fun (table : List (String × s.Value)) (entry : Key × Node) => do
          let name ← entry.1.name.mapError .fault
          let v ← readShape s entry.2
          return Table.put name v table)
        [] (keys.zip values)
      let _ ← ending.stop
      return table
    | n => .error (n.unexpected "a map")
  | .record name fields, n =>
    match n with
    | .object _ keys values ending => do
      let read ← List.foldlM
        (fun (read : fields.Partial) (entry : Key × Node) => do
          let name ← entry.1.name.mapError .fault
          readField fields name entry.1.after entry.2 read)
        fields.unread (keys.zip values)
      let stop ← ending.stop
      (fields.finish read).mapError fun missing => .mismatch (.missingField missing) stop
    | .list _ items ending => do
      let (values, rest) ← readPositional fields name fields.size 0 items ending
      match rest with
      | extra :: _ => .error (.fault ⟨.trailingCharacters, extra.lookingAt⟩)
      | [] =>
        match ending with
        | .closed _ => return values
        | .broken b => .error (.fault (afterLast b.reading))
    | n => .error (n.unexpected ("struct " ++ name))

/-- Reads an entry of an object into the field of its name; `after` is the offset of what
follows the name. -/
def readField : (fields : Fields) → (name : String) → (after : Nat) → Node → fields.Partial →
    Except Error fields.Partial
  | .nil, _, _, n, _ => n.skip
  | .field known _ s rest, name, after, n, (value, others) =>
    if name = known then
      match value with
      | some _ => .error (.mismatch (.duplicateField known) after)
      | none => (readShape s n).map fun v => (some v, others)
    else (readField rest name after n others).map fun others => (value, others)

/-- Reads the items of a list into the fields of a record in order: their values, and the
items that are left.  `size` counts all fields of the record and `done` those already read. -/
def readPositional : (fields : Fields) → (name : String) → (size done : Nat) → List Node →
    Ending → Except Error (fields.Values × List Node)
  | .nil, _, _, _, items, _ => .ok ((), items)
  | .field _ needed s rest, name, size, done, items, ending =>
    match items with
    | item :: items => do
      let v ← readShape s item
      let (vs, items) ← readPositional rest name size (done + 1) items ending
      return ((v, vs), items)
    | [] => do
      let stop ← ending.stop
      if needed then
        .error (.mismatch (.invalidLength done
          ("struct " ++ name ++ " with " ++ toString size ++
            (if size = 1 then " element" else " elements"))) stop)
      else
        let (vs, items) ← readPositional rest name size (done + 1) [] ending
        return ((s.blank, vs), items)

end

/-- Reads a whole text as a value of a shape. -/
def read (s : Shape) (text : String) : Except Error s.Value := do
  let doc := Document.ofText text
  let value ← readShape s doc.root
  match doc.trailing with
  | some f => .error (.fault f)
  | none => return value

/-! ## Messages -/

/-- What an error says, without its place. -/
def Error.cause : Error → String
  | .fault f => f.trouble.message
  | .mismatch m _ => m.message

def Error.offset : Error → Nat
  | .fault f => f.offset
  | .mismatch _ offset => offset

/-- What an error in a text says, with its line and column. -/
def Error.message (text : String) (e : Error) : String :=
  let (line, column) := place text e.offset
  e.cause ++ " at line " ++ toString line ++ " column " ++ toString column

end CmdletForge.Json
