import CmdletForge.Files.Path
import CmdletForge.Text.Basic

/-!
# CmdletForge.Files.Tree

Files and folders, and what asking for a path answers.

1. A tree has one root folder, and one of its folders is where relative paths start.
2. A path is walked segment by segment.  Links are followed, at most forty of them, and nothing
   can be walked through but a folder.
3. `read`, `write`, `makeFolder` and `makeFolders` answer with the cause when they fail, and then
   a single one of them has changed nothing.
4. What the entries do not show may also keep a file or a folder from being put into the tree:
   rights, a disk that is read-only, one that is full.  A tree says of each place whether and why
   (`Tree.refuses`).
-/

namespace CmdletForge.Files

/-- Why a path could not be read, written or made. -/
inductive Cause where
  | notFound
  | exists
  | notFolder
  | isFolder
  | nameTooLong
  | tooManyLinks
  | notText
  | zeroCharacter
  | cannotMakeAll
  /-- Any other reason of the system. -/
  | refused (reason : String)
  deriving DecidableEq, Repr

def Cause.message : Cause → String
  | .notFound => "No such file or directory (os error 2)"
  | .exists => "File exists (os error 17)"
  | .notFolder => "Not a directory (os error 20)"
  | .isFolder => "Is a directory (os error 21)"
  | .nameTooLong => "File name too long (os error 36)"
  | .tooManyLinks => "Too many levels of symbolic links (os error 40)"
  | .notText => "stream did not contain valid UTF-8"
  | .zeroCharacter => "file name contained an unexpected NUL byte"
  | .cannotMakeAll => "failed to create whole tree"
  | .refused reason => reason

/-- Why an output was not written. -/
inductive OutputTrouble where
  /-- The folder for it could not be made. -/
  | folder (cause : Cause)
  | file (name : String) (cause : Cause)
  deriving DecidableEq, Repr

def OutputTrouble.message : OutputTrouble → String
  | .folder cause => "Failed to create output directory: " ++ cause.message
  | .file name cause => "Failed to write " ++ name ++ ": " ++ cause.message

/-! ## Trees -/

/-- What may stand under a name. -/
inductive Entry where
  /-- A file with its text, or one whose bytes are no text. -/
  | file (text : Option String)
  | link (target : Path)
  | folder (entries : List (String × Entry))

/-- Where an entry stands: the names from the root. -/
abbrev Location := List String

/-- Puts an entry under a name, in the place of the one that was there or at the end. -/
def putEntry (name : String) (e : Entry) : List (String × Entry) → List (String × Entry)
  | [] => [(name, e)]
  | (other, old) :: rest =>
    if other = name then (name, e) :: rest else (other, old) :: putEntry name e rest

namespace Entry

/-- The entry under a name of a folder. -/
def child? (name : String) : Entry → Option Entry
  | .folder entries => entries.lookup name
  | _ => none

def get? (e : Entry) : Location → Option Entry
  | [] => some e
  | name :: rest => (e.child? name).bind fun e => e.get? rest

/-- The tree with an entry put at a location, whose folder must be there. -/
def put (new : Entry) (e : Entry) : Location → Entry
  | [] => new
  | name :: rest =>
    match e with
    | .folder entries =>
      .folder (putEntry name (put new ((entries.lookup name).getD (.folder [])) rest) entries)
    | e => e

/-- Whether an entry is a folder. -/
def isFolder : Entry → Bool
  | .folder _ => true
  | _ => false

end Entry

/-- A tree, and the folder where relative paths start. -/
structure Tree where
  root : Entry
  here : Location
  /-- Why the system does not let an entry be put at a location of the tree as it stands. -/
  refuses : (root : Entry) → Location → (new : Entry) → Option String := fun _ _ _ => none

/-! ## Walking a path -/

/-- The longest name, in bytes, that an entry may have. -/
def longestName : Nat := 255

/-- One walk over the segments of a path, from the folder at `at_`; `follow` goes on from a link
that stands in a folder. -/
def walkWith (root : Entry) (follow : Location → Path → List String → Except Cause Location)
    (at_ : Location) : List String → Except Cause Location
  | [] => .ok at_
  | name :: rest =>
    match root.get? at_ with
    | some (.folder entries) =>
      if Path.isIdle name then walkWith root follow at_ rest
      else if name = ".." then walkWith root follow at_.dropLast rest
      else if longestName < name.utf8ByteSize then .error .nameTooLong
      else
        match entries.lookup name with
        | none => .error .notFound
        | some (.link target) => follow at_ target rest
        | some _ => walkWith root follow (at_ ++ [name]) rest
    | _ => .error .notFolder

def startOf (at_ : Location) (p : Path) : Location := if Path.isAbsolute p then [] else at_

/-- The location that segments lead to from the folder at `at_`, over at most `links` links. -/
def walk (root : Entry) : (links : Nat) → Location → List String → Except Cause Location
  | 0, at_, names => walkWith root (fun _ _ _ => .error .tooManyLinks) at_ names
  | links + 1, at_, names =>
    walkWith root
      (fun at_ target rest =>
        if target.isEmpty then .error .notFound
        else walk root links (startOf at_ target) (Path.segments target ++ rest))
      at_ names

/-- How many links a path may lead over. -/
def mostLinks : Nat := 40

/-- Whether a path can be asked for at all. -/
def checkPath (p : Path) : Except Cause Unit :=
  if p.toList.contains (Char.ofNat 0) then .error .zeroCharacter
  else if p.isEmpty then .error .notFound
  else .ok ()

namespace Tree

/-- The location that a path leads to. -/
def locate (t : Tree) (p : Path) : Except Cause Location := do
  checkPath p
  walk t.root mostLinks (startOf t.here p) (Path.segments p)

/-- The entry that a path leads to. -/
def entry? (t : Tree) (p : Path) : Option Entry :=
  match t.locate p with
  | .ok location => t.root.get? location
  | .error _ => none

/-- Whether a path leads to a folder. -/
def isFolder (t : Tree) (p : Path) : Bool := (t.entry? p).any Entry.isFolder

/-- The text of the file that a path leads to. -/
def read (t : Tree) (p : Path) : Except Cause String := do
  let location ← t.locate p
  match t.root.get? location with
  | some (.file (some text)) => return text
  | some (.file none) => throw .notText
  | some (.folder _) => throw .isFolder
  | _ => throw .notFound

/-! ## Changing a tree -/

/-- Puts an entry at a location, unless the system refuses it. -/
def putAt (t : Tree) (location : Location) (new : Entry) : Except Cause Tree :=
  match t.refuses t.root location new with
  | some reason => .error (.refused reason)
  | none => .ok { t with root := Entry.put new t.root location }

/-- The last name of a path and what comes before it. -/
inductive Last where
  /-- The path ends with a folder that is there or is not: with `.`, with `..`, or at the root. -/
  | folder
  | name (before : List String) (name : String) (slash : Bool)

def last (names : List String) : Last :=
  let kept := names.reverse.dropWhile String.isEmpty
  match kept with
  | [] => .folder
  | name :: before =>
    if name = "." ∨ name = ".." then .folder
    else .name before.reverse name (kept.length < names.length)

/-- The location of the folder that segments lead to. -/
def folderAt (t : Tree) (links : Nat) (at_ : Location) (names : List String) :
    Except Cause Location := do
  let location ← walk t.root links at_ names
  match t.root.get? location with
  | some (.folder _) => return location
  | _ => throw .notFolder

/-- Makes a folder at the end of a path; nothing may stand there. -/
def makeFolder (t : Tree) (p : Path) : Except Cause Tree := do
  checkPath p
  match last (Path.segments p) with
  | .folder =>
    let _ ← t.locate p
    throw .exists
  | .name before name _ =>
    let location ← t.folderAt mostLinks (startOf t.here p) before
    if longestName < name.utf8ByteSize then throw .nameTooLong
    match t.root.get? (location ++ [name]) with
    | some _ => throw .exists
    | none => t.putAt (location ++ [name]) (.folder [])

/-- The location that a text goes to when it is written to a path, over at most `links` links. -/
def target (t : Tree) : (links : Nat) → Location → List String → Except Cause Location
  | links, at_, names =>
    match last names with
    | .folder => do
      let _ ← walk t.root links at_ names
      .error .isFolder
    | .name before name slash => do
      let location ← t.folderAt links at_ before
      if slash then throw .isFolder
      if longestName < name.utf8ByteSize then throw .nameTooLong
      match t.root.get? (location ++ [name]) with
      | some (.folder _) => throw .isFolder
      | some (.link target) =>
        match links with
        | 0 => throw .tooManyLinks
        | links + 1 =>
          if target.isEmpty then throw .notFound
          else t.target links (startOf location target) (Path.segments target)
      | _ => return location ++ [name]

/-- Writes a text to the file that a path leads to, which need not be there. -/
def write (t : Tree) (p : Path) (text : String) : Except Cause Tree := do
  checkPath p
  let location ← t.target mostLinks (startOf t.here p) (Path.segments p)
  t.putAt location (.file (some text))

/-- Makes a folder and those around it that are missing; at most `steps` of them. -/
def makeFoldersFrom (t : Tree) (p : Path) : (steps : Nat) → Except Cause Unit × Tree
  | 0 => (.error .cannotMakeAll, t)
  | steps + 1 =>
    if p.isEmpty then (.ok (), t)
    else
      match t.makeFolder p with
      | .ok t => (.ok (), t)
      | .error .notFound =>
        match Path.parent? p with
        | none => (.error .cannotMakeAll, t)
        | some parent =>
          match t.makeFoldersFrom parent steps with
          | (.error cause, t) => (.error cause, t)
          | (.ok (), t) =>
            match t.makeFolder p with
            | .ok t => (.ok (), t)
            | .error cause => if t.isFolder p then (.ok (), t) else (.error cause, t)
      | .error cause => if t.isFolder p then (.ok (), t) else (.error cause, t)

/-- Makes a folder and those around it that are missing.  Folders that could be made stay when
one could not. -/
def makeFolders (t : Tree) (p : Path) : Except Cause Unit × Tree :=
  t.makeFoldersFrom p ((Path.segments p).length + 1)

end Tree

/-! ## Files below a folder -/

mutual

/-- The paths of the files in and below an entry at the path `p`.  Links are not followed. -/
def Entry.files (p : Path) : Entry → List Path
  | .file _ => [p]
  | .link _ => []
  | .folder entries => (Text.sortByName (entriesFiles p entries)).flatMap (·.2)

/-- For each entry of the folder at `p` its name and the files in and below it. -/
def entriesFiles (p : Path) : List (String × Entry) → List (String × List Path)
  | [] => []
  | (name, e) :: rest => (name, e.files (Path.join p name)) :: entriesFiles p rest

end

/-- The paths of the files below a folder, the entries of each folder in the order of their
names; none when there is no such folder. -/
def Tree.filesBelow (t : Tree) (p : Path) : List Path :=
  match t.entry? p with
  | some (.folder entries) => (Entry.folder entries).files p
  | _ => []

end CmdletForge.Files
