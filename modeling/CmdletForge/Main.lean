import CmdletForge.Command.Run
import CmdletForge.Files.Changes

/-!
# CmdletForge.Main

The program.

It looks at the files that a command may read and at the folders that it may write to, runs the
command on them, and then makes the folders and files that are new.
-/

namespace CmdletForge.Command

open Files (Change Entry Tree)

/-- A path that matters to a command, and how many folders deep. -/
structure Place where
  path : Path
  depth : Nat

/-- The longest path, in bytes, that can be asked for. -/
def longestPath : Nat := 4096

/-- How deep a folder can be looked into: each folder on the way takes a slash and a name, so that
a path that is not too long leads through fewer of them. -/
def deepest : Nat := longestPath / 2

/-- The places with display rules. -/
def rulePlaces (folder : Path) (filter : Option String) : List Place :=
  [⟨Path.join folder "Configs.xml", 0⟩,
    ⟨Display.Collection.documentFolder folder filter, deepest⟩]

/-- The folder that a format document is written to. -/
def documentPlaces (output : Option Path) : List Place :=
  match output with
  | some path => (Path.parent? path).toList.map fun parent => ⟨parent, 1⟩
  | none => [⟨defaultOutput, 1⟩]

/-- The places that matter to a command; the deeper ones come later, so that they stay whole. -/
def Subcommand.places : Subcommand → List Place
  | .showRules folder filter model =>
    model.toList.map (fun path => ⟨path, 0⟩) ++ rulePlaces folder filter
  | .generateFormats folder model filter output =>
    documentPlaces output ++ [⟨model, 0⟩] ++ rulePlaces folder filter
  | .generateCmdlets model output => [⟨output, 1⟩, ⟨model, 0⟩]

/-! ## Looking at files -/

/-- The entries of a folder, unless there is none. -/
def listing (path : Path) : IO (Option (List IO.FS.DirEntry)) := do
  let place : IO.FS.DirEntry := ⟨path, ""⟩
  try
    return some (← place.path.readDir).toList
  catch _ =>
    return none

def isLink (e : IO.FS.DirEntry) : IO Bool := do
  return (← e.path.symlinkMetadata).type == .symlink

/-- The entry at a path, down to a depth.  Links in a folder are left out. -/
def entryAt (path : Path) : (depth : Nat) → IO (Option Entry)
  | 0 => do
    if (← listing path).isSome then return some (.folder [])
    try
      return some (.file (Text.decodeText (← IO.FS.readBinFile path).toList))
    catch _ =>
      return none
  | depth + 1 => do
    match ← listing path with
    | none => entryAt path 0
    | some found =>
      let entries ← found.filterMapM fun e => do
        if ← isLink e then return none
        let entry ← entryAt (Path.join path e.fileName) depth
        return entry.map fun entry => (e.fileName, entry)
      return some (.folder entries)

/-- Puts an entry into a tree, unless it is a folder that is there already. -/
def add (t : Tree) (location : Files.Location) (e : Entry) : Tree :=
  match t.root.get? location, e with
  | some (.folder _), .folder [] => t
  | _, e => { t with root := Entry.put e t.root location }

/-- Looks at the entries on the way to a place, and at the place. -/
def look (t : Tree) (place : Place) : IO Tree := do
  let full := Path.join (herePath t) place.path
  let names := (Path.segments full).filter fun name => !Path.isIdle name
  let mut t := t
  let mut location : Files.Location := []
  let mut path := ""
  for (name, i) in names.zipIdx do
    path := path ++ "/" ++ name
    location := if name = ".." then location.dropLast else location ++ [name]
    match ← entryAt path (if i + 1 = names.length then place.depth else 0) with
    | some e => t := add t location e
    | none => return t
  return t

/-! ## Changing files -/

def make : Change → IO Unit
  | .folder path => IO.FS.createDirAll path
  | .file path text => IO.FS.writeFile path text

/-- Runs a request on the files as they are. -/
def perform (r : Request) : IO UInt32 := do
  let here := Path.components (← IO.currentDir).toString
  let start : Tree := { root := Entry.put (.folder []) (.folder []) here, here }
  let before ← r.command.places.foldlM look start
  let (succeeded, after) := run before r
  (Tree.changes before after.tree).forM make
  IO.print after.output
  IO.eprint after.errors
  return if succeeded then 0 else 1

end CmdletForge.Command

open CmdletForge.Command in
/-- Reads the arguments and does what they ask for. -/
def main (arguments : List String) : IO UInt32 := do
  match Request.ofArguments arguments with
  | .ok request => perform request
  | .error .help =>
    IO.print usageText
    return 0
  | .error .version =>
    IO.print versionText
    return 0
  | .error .fault =>
    IO.eprint usageText
    return 2
