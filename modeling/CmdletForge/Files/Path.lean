/-!
# CmdletForge.Files.Path

Paths as texts.

1. A path is cut at its slashes into segments.  Empty segments and `.` name nothing, except a `.`
   at the very front; what is left are the components.
2. Joining puts a slash between two paths where there is none, and an absolute path replaces
   what it is joined to.
3. An extension is what follows the last point of the last component, unless nothing comes
   before that point.
-/

namespace CmdletForge

/-- A path, as it is written. -/
abbrev Path := String

namespace Path

/-! ## Segments -/

/-- The pieces of `cs` between slashes, with `acc` the reversed start of the present one. -/
def segmentsFrom (acc : List Char) : List Char → List String
  | [] => [String.ofList acc.reverse]
  | '/' :: cs => String.ofList acc.reverse :: segmentsFrom [] cs
  | c :: cs => segmentsFrom (c :: acc) cs

/-- The segments of a path; an absolute path has an empty first one. -/
def segments (p : Path) : List String := segmentsFrom [] p.toList

/-- Whether a path starts at the root. -/
def isAbsolute (p : Path) : Bool := p.toList.head? == some '/'

def endsWithSlash (p : Path) : Bool := p.toList.getLast? == some '/'

/-- The path `b`, seen from the folder `a`. -/
def join (a b : Path) : Path :=
  if isAbsolute b then b
  else if a.isEmpty ∨ endsWithSlash a then a ++ b
  else a ++ "/" ++ b

/-! ## Components -/

/-- Whether a segment names nothing. -/
def isIdle (s : String) : Bool := s.isEmpty || s == "."

def components (p : Path) : List String :=
  match segments p with
  | [] => []
  | first :: rest =>
    (if first.isEmpty then [] else [first]) ++ rest.filter fun s => !isIdle s

/-- Reversed segments from the last component on. -/
def dropIdle : List String → List String
  | ["."] => ["."]
  | s :: rest => if isIdle s then dropIdle rest else s :: rest
  | [] => []

/-- The path without its last component; there is none for a path without components. -/
def parent? (p : Path) : Option Path :=
  let root := isAbsolute p
  let body := if root then (segments p).drop 1 else segments p
  match (if root then body.reverse.dropWhile isIdle else dropIdle body.reverse) with
  | [] => none
  | _ :: rest =>
    let kept := if root then rest.dropWhile isIdle else dropIdle rest
    some ((if root then "/" else "") ++ "/".intercalate kept.reverse)

/-- The last component, when it names a file or folder. -/
def fileName? (p : Path) : Option String :=
  match (components p).getLast? with
  | some name => if name = "." ∨ name = ".." then none else some name
  | none => none

/-- What follows the last point of a name, unless nothing comes before it. -/
def extensionOf (name : String) : Option String :=
  let cs := name.toList.reverse
  match cs.dropWhile (· ≠ '.') with
  | _ :: _ :: _ => some (String.ofList (cs.takeWhile (· ≠ '.')).reverse)
  | _ => none

def extension? (p : Path) : Option String := (fileName? p).bind extensionOf

/-! ## Absolute paths -/

/-- The absolute path of `p` seen from the folder `here`, without idle segments; an empty path
has none. -/
def absolute? (here p : Path) : Option Path :=
  if p.isEmpty then none
  else
    let body := (components p).filter (· ≠ ".")
    let whole :=
      if isAbsolute p then
        match segments p with
        | "" :: "" :: next :: _ =>
          if next.isEmpty then "/" ++ "/".intercalate body else "//" ++ "/".intercalate body
        | _ => "/" ++ "/".intercalate body
      else body.foldl join here
    some (if endsWithSlash p then join whole "" else whole)

end Path

end CmdletForge
