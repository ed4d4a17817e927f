import CmdletForge.Display.Manifest
import CmdletForge.Files.Tree

/-!
# CmdletForge.Display.Load

Manifests in files.

The manifest of a folder is its file `Configs.xml`, and messages give the absolute path of it.
-/

namespace CmdletForge.Display

/-- Why the manifest in a file cannot be used. -/
inductive ManifestTrouble where
  | unreadable (cause : Files.Cause)
  | broken (e : Xml.ReadError)
  deriving DecidableEq, Repr

def ManifestTrouble.message : ManifestTrouble → String
  | .unreadable cause => cause.message
  | .broken e => e.message

/-- What lies behind a trouble, from the outside inwards. -/
def ManifestTrouble.causes : ManifestTrouble → List String
  | .unreadable cause => [cause.message]
  | .broken e => e.message :: e.causes

/-- A manifest that cannot be used, and its path. -/
structure ManifestError where
  path : Path
  trouble : ManifestTrouble
  deriving DecidableEq, Repr

def ManifestError.message (e : ManifestError) : String :=
  "Failed to load configuration manifest " ++ e.path ++ ": " ++ e.trouble.message

/-- The path of the manifest of a folder; `here` is the working folder. -/
def manifestPath (here folder : Path) : Path :=
  let joined := Path.join folder "Configs.xml"
  (Path.absolute? here joined).getD joined

/-- Reads the manifest of a folder. -/
def Manifest.load (t : Files.Tree) (here folder : Path) : Except ManifestError Manifest := do
  let path := manifestPath here folder
  let text ← (t.read path).mapError fun cause => ⟨path, .unreadable cause⟩
  (Manifest.ofText text).mapError fun e => ⟨path, .broken e⟩

end CmdletForge.Display
