import HotkeyScript.Files.Tree
import HotkeyScript.Settings.Toml
import HotkeyScript.Text.Utf8

/-!
# Discovery of settings files

Settings files are looked for in the home directory and in every directory from the root down to the
script. A file closer to the script is put on top of those farther from it. A file that cannot be
used is passed over.
-/

namespace HotkeyScript
namespace Discovery

def fileName : List Char := "ahkfmt.toml".toList

/-- The directory that a search starts from: that of a file, a directory itself, and the current
directory for a path that leads nowhere. -/
def startFolder? (w : World) (start : Path) : Option Path :=
  if w.isFile start then start.parent?
  else if w.isFolder start then some start
  else some w.here

def homeFile (w : World) : List Path :=
  (w.homeFolder.toList.map (·.join fileName)).filter w.isFile

/-- The places of settings files from the root down to a directory. -/
def places (folder : Path) : List Path := folder.ancestors.reverse.map (·.join fileName)

/-- Add a path that names a file, unless the same path is there already. -/
def addFile (w : World) (found : List Path) (p : Path) : List Path :=
  if w.isFile p && !found.any p.same then found ++ [p] else found

def files (w : World) (start : Path) : List Path :=
  ((startFolder? w start).toList.flatMap places).foldl (addFile w) (homeFile w)

inductive Fault
  | unreadable (fault : FileTree.Fault)
  | notText
  | malformed
  deriving DecidableEq, Repr

def Fault.message : Fault → String
  | .unreadable f => f.message
  | .notText => "stream did not contain valid UTF-8"
  | .malformed => "TOML parse error"

def readLayer (w : World) (p : Path) : Except Fault Overrides :=
  match w.read p with
  | .error f => .error (.unreadable f)
  | .ok bytes =>
    match Utf8.decode bytes with
    | .error _ => .error .notText
    | .ok text =>
      match Overrides.ofText? text with
      | none => .error .malformed
      | some o => .ok o

/-- The layers of settings files, later ones on top, with the files that were passed over. -/
def layer (w : World) : Settings → List Path → Settings × List (Path × Fault)
  | s, [] => (s, [])
  | s, p :: rest =>
    match readLayer w p with
    | .ok o => layer w (o.apply s) rest
    | .error f =>
      let (s, passed) := layer w s rest
      (s, (p, f) :: passed)

def settings (w : World) (start : Path) : Settings × List (Path × Fault) :=
  layer w {} (files w start)

end Discovery
end HotkeyScript
