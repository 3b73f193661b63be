import HotkeyScript.Run.Session

/-!
# The program

The part of the file system that a run can look at is read into a tree, the run is computed on that
tree, and what the run changed is written back.
-/

namespace HotkeyScript
namespace Program

open Command

partial def readAll (stream : IO.FS.Stream) (sofar : ByteArray) : IO ByteArray := do
  let chunk ← stream.read 65536
  if chunk.isEmpty then return sofar else readAll stream (sofar ++ chunk)

/-- Nothing, where an action fails. -/
def attempt? {α : Type} (action : IO α) : IO (Option α) := do
  match ← action.toBaseIO with
  | .ok a => return some a
  | .error _ => return none

def textOf (l : Location) : String := (FileTree.absolute l).toString

def trail (cwd : Location) (p : Path) : List Location :=
  let pieces := p.text.splitOn '/'
  let next (l : Location) (piece : List Char) : Location :=
    if Path.isVoid piece then l else if piece = ['.', '.'] then l.dropLast else l ++ [piece]
  let start := if p.anchor = .root then [] else cwd
  (pieces.foldl (fun (done, l) piece => (next l piece :: done, next l piece)) ([start], start)).1

def addFile (t : FileTree) (l : Location) : IO FileTree := do
  if t.isFileAt l then return t
  match ← attempt? (IO.FS.readBinFile (textOf l)) with
  | some bytes => return { t with files := t.files ++ [(l, bytes)] }
  | none => return t

def isFolder (l : Location) : IO Bool := do
  match ← attempt? (IO.FS.realPath (textOf l)) with
  | some p => p.isDir
  | none => return false

/-- A file, or a directory with the settings file in it. -/
def addPlace (t : FileTree) (l : Location) : IO FileTree := do
  if ← isFolder l then
    addFile { t with folders := l :: t.folders } (l ++ [Discovery.fileName])
  else addFile t l

/-- The scripts and settings files of a directory, down to a depth. -/
partial def addFolder (a : Arguments) (depth : Nat) (t : FileTree) (l : Location) : IO FileTree := do
  if depth = 0 || !(← isFolder l) then return t
  let some entries ← attempt? (do (← IO.FS.realPath (textOf l)).readDir) | return t
  entries.foldlM (fun t entry => do
    let next := l ++ [entry.fileName.toList]
    if ← isFolder next then
      addFolder a (depth - 1) { t with folders := next :: t.folders } next
    else if Run.isScript (FileTree.absolute next) a.extensions ||
        entry.fileName.toList = Discovery.fileName then addFile t next
    else return t) t

def observe (a : Arguments) : IO World := do
  let cwd := (Path.ofString (← IO.currentDir).toString).names
  let home := (← IO.getEnv "HOME").map Path.ofString
  let userProfile := (← IO.getEnv "USERPROFILE").map Path.ofString
  let paths := a.inputs ++ a.config.toList ++ home.toList ++ userProfile.toList
  let places := (paths.flatMap (trail cwd) ++ trail [] (FileTree.absolute cwd)).eraseDups
  let t ← places.foldlM addPlace {}
  let folders := a.inputs.filterMap fun p => (trail cwd p).head?
  let t ← folders.foldlM (addFolder a (if a.recursive then Run.deepest else 1)) t
  return { tree := t, cwd, home, userProfile }

def writeBack (before after : FileTree) : IO Unit := do
  for (l, bytes) in after.files do
    unless (before.contents? l).any (·.data = bytes.data) do IO.FS.writeBinFile (textOf l) bytes

end Program
end HotkeyScript

open HotkeyScript in
def main (words : List String) : IO UInt32 := do
  let words := words.map String.toList
  let args? := (Command.Arguments.parse words).toOption
  let w ← args?.elim (pure {}) Program.observe
  let stdin ← if args?.any Run.readsStdin then Program.readAll (← IO.getStdin) .empty else pure .empty
  let r := Run.run w words stdin
  Program.writeBack w.tree r.tree
  (← IO.getStdout).write r.stdout
  for n in r.notices do IO.eprintln (n.level ++ ": " ++ n.message)
  for m in r.remarks do IO.eprintln m.message
  return r.exit.toUInt32
