import CmdletForge.Text.Basic
import CmdletForge.Text.Utf8

/-!
# CmdletForge.Xml.Markup

XML texts cut into pieces: runs of text and pieces of markup, each with its byte offsets.

1. Markup begins at `<`.  A tag ends at the first `>` outside of quotes, a comment at `-->`, a
   CDATA section at `]]>`, an instruction at `?>`, and a document type declaration at the `>`
   that balances its `<`.
2. The pieces cover the text without gaps.  A byte order mark in front is passed over and does
   not count in the offsets.
3. End tags must match the start tags that are open; an element may stay open at the end.
4. Reading goes character by character: `Scan.step` takes one, and reading a text in two parts
   is reading the whole.
-/

namespace CmdletForge.Xml

/-! ## Pieces -/

/-- What a piece of an XML text is. -/
inductive Event where
  /-- Characters outside of markup, as they are written. -/
  | text (raw : List Char)
  /-- A start tag: what stands between `<` and `>`. -/
  | start (content : List Char)
  /-- The tag of an empty element: what stands between `<` and `/>`. -/
  | empty (content : List Char)
  | finish (name : List Char)
  | cdata (content : List Char)
  | doctype
  /-- A comment or an instruction. -/
  | aside
  deriving DecidableEq, Repr

/-- A piece, the byte offset where it begins and the one behind it. -/
structure Piece where
  start : Nat
  stop : Nat
  event : Event
  deriving DecidableEq, Repr

/-! ## Faults -/

/-- What is wrong with a piece of markup. -/
inductive Trouble where
  | openComment
  | openCData
  | openDoctype
  | openTag
  | openInstruction
  | unknownMarkup
  | nameless
  | unmatchedEnd (name : List Char)
  | mismatchedEnd (expected found : List Char)
  | missedEnd (name : List Char)
  deriving DecidableEq, Repr

/-- Whether the trouble is that of a single piece, and not of how pieces fit together. -/
def Trouble.isLocal : Trouble → Bool
  | .nameless | .unmatchedEnd _ | .mismatchedEnd _ _ | .missedEnd _ => false
  | _ => true

/-- What the trouble is, without its kind. -/
def Trouble.cause : Trouble → String
  | .openComment => "comment not closed: `-->` not found before end of input"
  | .openCData => "CDATA not closed: `]]>` not found before end of input"
  | .openDoctype => "DOCTYPE not closed: `>` not found before end of input"
  | .openTag => "tag not closed: `>` not found before end of input"
  | .openInstruction =>
    "processing instruction or xml declaration not closed: `?>` not found before end of input"
  | .unknownMarkup => "unknown or missed symbol in markup"
  | .nameless => "`<!DOCTYPE>` declaration does not contain a name of a document type"
  | .unmatchedEnd name => "close tag `</" ++ String.ofList name ++ ">` does not match any open tag"
  | .mismatchedEnd expected found =>
    "expected `</" ++ String.ofList expected ++ ">`, but `</" ++ String.ofList found ++
      ">` was found"
  | .missedEnd name =>
    "start tag not closed: `</" ++ String.ofList name ++ ">` not found before end of input"

def Trouble.message (t : Trouble) : String :=
  (if t.isLocal then "syntax error: " else "ill-formed document: ") ++ t.cause

/-- A trouble and its byte offset. -/
structure Fault where
  trouble : Trouble
  offset : Nat
  deriving DecidableEq, Repr

/-! ## Characters -/

/-- Blanks between the parts of markup. -/
def isSpace (c : Char) : Bool := c == ' ' || c == '\t' || c == '\r' || c == '\n'

/-- The name at the front of a tag. -/
def tagName (content : List Char) : List Char := content.takeWhile fun c => !isSpace c

/-- Characters without the blanks at their end. -/
def trimEnd (cs : List Char) : List Char := (cs.reverse.dropWhile isSpace).reverse

/-! ## Reading -/

/-- What is being read; what of it was read so far is reversed. -/
inductive Mode where
  | text (read : List Char)
  /-- Behind `<`. -/
  | opened
  /-- Behind `<!`. -/
  | declared
  | tag (read : List Char) (quote : Option Char)
  | instruction (read : List Char)
  | comment (read : List Char)
  | cdata (read : List Char)
  | doctype (read : List Char) (depth : Nat)
  | failed
  deriving DecidableEq, Repr

/-- A text in the middle of being read. -/
structure Scan where
  mode : Mode
  /-- The names of the open elements, the innermost first. -/
  elements : List (List Char)
  /-- Where the present piece begins. -/
  start : Nat
  /-- How many bytes have been read. -/
  offset : Nat
  /-- The pieces, the last one first. -/
  pieces : List Piece
  fault : Option Fault
  deriving DecidableEq, Repr

namespace Scan

def blank : Scan := ⟨.text [], [], 0, 0, [], none⟩

/-- Ends a piece at the present offset. -/
def emit (s : Scan) (e : Event) : Scan :=
  { s with mode := .text [], start := s.offset, pieces := ⟨s.start, s.offset, e⟩ :: s.pieces }

/-- Ends the reading with a fault at a byte offset. -/
def fail (s : Scan) (t : Trouble) (offset : Nat) : Scan :=
  { s with mode := .failed, fault := some ⟨t, offset⟩ }

def go (s : Scan) (m : Mode) : Scan := { s with mode := m }

/-- The name in an end tag: its content without the blanks at the end, or blanks alone as they
are. -/
def endName (content : List Char) : List Char :=
  if content.all isSpace then content else trimEnd content

/-- An end tag with the given content behind its slash. -/
def endTag (s : Scan) (content : List Char) : Scan :=
  let name := endName content
  match s.elements with
  | [] => s.fail (.unmatchedEnd name) s.start
  | expected :: outer =>
    let s := { s with elements := outer }
    if name = expected then s.emit (.finish name)
    else s.fail (.mismatchedEnd expected name) s.start

/-- A tag with the given reversed content. -/
def closeTag (s : Scan) (read : List Char) : Scan :=
  match read.reverse, read with
  | '/' :: content, _ => s.endTag content
  | _, '/' :: before => s.emit (.empty before.reverse)
  | content, _ => { s with elements := tagName content :: s.elements }.emit (.start content)

def tagStep (s : Scan) (read : List Char) (quote : Option Char) (c : Char) : Scan :=
  match quote with
  | none =>
    if c = '>' then s.closeTag read
    else if c = '"' ∨ c = '\'' then s.go (.tag (c :: read) (some c))
    else s.go (.tag (c :: read) none)
  | some q => s.go (.tag (c :: read) (if c = q then none else some q))

/-- One more character of an instruction. -/
def instructionStep (s : Scan) (read : List Char) (c : Char) : Scan :=
  if c = '>' ∧ read.head? = some '?' then
    if read.length < 2 then s.fail .openInstruction s.start else s.emit .aside
  else s.go (.instruction (c :: read))

/-- One more character of a comment. -/
def commentStep (s : Scan) (read : List Char) (c : Char) : Scan :=
  if c = '>' ∧ 4 < read.length ∧ read.take 2 = ['-', '-'] then
    if read.reverse.take 3 = ['!', '-', '-'] then s.emit .aside else s.fail .openComment s.start
  else s.go (.comment (c :: read))

/-- One more character of a CDATA section. -/
def cdataStep (s : Scan) (read : List Char) (c : Char) : Scan :=
  if c = '>' ∧ read.take 2 = [']', ']'] then
    if read.reverse.take 8 = "![CDATA[".toList then
      s.emit (.cdata ((read.drop 2).reverse.drop 8))
    else s.fail .openCData s.start
  else s.go (.cdata (c :: read))

/-- One more character of a document type declaration. -/
def doctypeStep (s : Scan) (read : List Char) (depth : Nat) (c : Char) (before : Nat) : Scan :=
  if c = '>' ∧ depth = 0 then
    let content := read.reverse
    if (content.take 8).map Text.lowerAscii ≠ "!doctype".toList then s.fail .openDoctype s.start
    else if (content.drop 8).all isSpace then s.fail .nameless before
    else s.emit .doctype
  else
    s.go (.doctype (c :: read)
      (if c = '<' then depth + 1 else if c = '>' then depth - 1 else depth))

def step (s : Scan) (c : Char) : Scan :=
  let before := s.offset
  let s := { s with offset := before + c.utf8Size }
  match s.mode with
  | .failed => s
  | .text read =>
    if c = '<' then
      if read.isEmpty then s.go .opened
      else
        let text : Piece := ⟨s.start, before, .text read.reverse⟩
        { s with mode := .opened, start := before, pieces := text :: s.pieces }
    else s.go (.text (c :: read))
  | .opened =>
    if c = '!' then s.go .declared
    else if c = '?' then s.go (.instruction [c])
    else s.tagStep [] none c
  | .declared =>
    if c = '[' then s.go (.cdata [c, '!'])
    else if c = '-' then s.go (.comment [c, '!'])
    else if c = 'D' ∨ c = 'd' then s.go (.doctype [c, '!'] 0)
    else s.fail .unknownMarkup s.start
  | .tag read quote => s.tagStep read quote c
  | .instruction read => s.instructionStep read c
  | .comment read => s.commentStep read c
  | .cdata read => s.cdataStep read c
  | .doctype read depth => s.doctypeStep read depth c before

/-- Reads characters. -/
def run (s : Scan) (cs : List Char) : Scan := cs.foldl step s

/-- Reading in two parts is reading the whole. -/
theorem run_append (s : Scan) (xs ys : List Char) : s.run (xs ++ ys) = (s.run xs).run ys :=
  List.foldl_append

/-- Comes to the end of the text. -/
def finish (s : Scan) : Scan :=
  match s.mode with
  | .failed => s
  | .text [] => s
  | .text read => s.emit (.text read.reverse)
  | .opened | .tag _ _ => s.fail .openTag s.start
  | .declared => s.fail .unknownMarkup s.start
  | .instruction _ => s.fail .openInstruction s.start
  | .comment _ => s.fail .openComment s.start
  | .cdata _ => s.fail .openCData s.start
  | .doctype _ _ => s.fail .openDoctype s.start

end Scan

/-- A text without the byte order mark in front. -/
def dropMark : List Char → List Char
  | '\uFEFF' :: cs => cs
  | cs => cs

/-- The pieces of a text, and the fault that ends them early. -/
def pieces (cs : List Char) : List Piece × Option Fault :=
  let s := (Scan.blank.run (dropMark cs)).finish
  (s.pieces.reverse, s.fault)

end CmdletForge.Xml
