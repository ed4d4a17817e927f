import CmdletForge.Files.Tree

/-!
# CmdletForge.Files.Changes

What one tree has that another did not have.

A folder is a change when there was none, and a file when there was none or it had another text.
Each folder comes before what is in it.
-/

namespace CmdletForge.Files

/-- Something that is new, by its path. -/
inductive Change where
  | folder (path : Path)
  | file (path : Path) (text : String)
  deriving DecidableEq, Repr

def Entry.text? : Entry → Option String
  | .file text => text
  | _ => none

mutual

/-- What is new in an entry at the path `p`, where `old` was before. -/
def Entry.changes (p : Path) (old : Option Entry) : Entry → List Change
  | .file (some text) =>
    if old.bind Entry.text? = some text then [] else [.file p text]
  | .file none | .link _ => []
  | .folder entries =>
    (if old.any Entry.isFolder then [] else [.folder p]) ++ entriesChanges p old entries

/-- What is new in the entries of the folder at the path `p`, where `old` was before. -/
def entriesChanges (p : Path) (old : Option Entry) : List (String × Entry) → List Change
  | [] => []
  | (name, e) :: rest =>
    e.changes (Path.join p name) (old.bind fun o => o.child? name) ++ entriesChanges p old rest

end

/-- What is new in a tree, by absolute paths. -/
def Tree.changes (before after : Tree) : List Change := after.root.changes "/" before.root

end CmdletForge.Files
