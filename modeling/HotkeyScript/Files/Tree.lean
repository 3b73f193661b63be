import HotkeyScript.Files.Path
import HotkeyScript.Text.Utf8

/-!
# File trees

A tree of directories and files, addressed by the names on the way from the root. Paths are looked
up from a current directory, one piece after another; every piece but the last must lead to a
directory, and so must the last one if a slash follows it. Names and paths have a longest length in
bytes.
-/

namespace HotkeyScript

/-- The names on the way from the root. -/
abbrev Location := List (List Char)

structure FileTree where
  files : List (Location × ByteArray) := []
  /-- Directories that need not hold a file. -/
  folders : List Location := []

namespace FileTree

def contents? (t : FileTree) (l : Location) : Option ByteArray := t.files.lookup l

def isFileAt (t : FileTree) (l : Location) : Bool := t.files.any fun f => f.1 == l

/-- A directory is the root, a folder or a directory above one, or a directory above a file. -/
def isFolderAt (t : FileTree) (l : Location) : Bool :=
  l.isEmpty || t.folders.any (l.isPrefixOf ·) ||
    t.files.any fun f => l.isPrefixOf f.1 && l != f.1

def write (t : FileTree) (l : Location) (bytes : ByteArray) : FileTree :=
  { t with files := t.files.map fun f => if f.1 = l then (f.1, bytes) else f }

/-- Writing changes contents only: each entry keeps its place. -/
@[simp] theorem map_fst_write (t : FileTree) (l : Location) (bytes : ByteArray) :
    (t.write l bytes).files.map Prod.fst = t.files.map Prod.fst := by
  simp only [write, List.map_map]
  apply List.map_congr_left
  intro f _
  simp only [Function.comp_apply]
  split <;> rfl

@[simp] theorem folders_write (t : FileTree) (l : Location) (bytes : ByteArray) :
    (t.write l bytes).folders = t.folders := rfl

@[simp] theorem isFileAt_write (t : FileTree) (l : Location) (bytes : ByteArray) (m : Location) :
    (t.write l bytes).isFileAt m = t.isFileAt m := by
  have h (u : FileTree) : u.isFileAt m = (u.files.map Prod.fst).any (· == m) := by
    rw [isFileAt, List.any_map]
    rfl
  rw [h, h, map_fst_write]

@[simp] theorem isFolderAt_write (t : FileTree) (l : Location) (bytes : ByteArray) (m : Location) :
    (t.write l bytes).isFolderAt m = t.isFolderAt m := by
  have h (u : FileTree) : u.isFolderAt m = (m.isEmpty || u.folders.any (m.isPrefixOf ·) ||
      (u.files.map Prod.fst).any fun f => m.isPrefixOf f && m != f) := by
    rw [isFolderAt, List.any_map]
    rfl
  rw [h, h, map_fst_write, folders_write]

/-- What is written is found again. -/
theorem contents?_write {t : FileTree} {l : Location} {old : ByteArray}
    (h : t.contents? l = some old) (bytes : ByteArray) :
    (t.write l bytes).contents? l = some bytes := by
  obtain ⟨files, folders⟩ := t
  simp only [contents?, write] at h ⊢
  induction files with
  | nil => simp at h
  | cons f files ih =>
    by_cases hf : f.1 = l
    · simp [hf]
    · have hlf : (l == f.1) = false := by simpa using Ne.symm hf
      rw [List.lookup_cons, hlf] at h
      rw [List.map_cons, if_neg hf, List.lookup_cons, hlf]
      exact ih h

inductive Fault
  | notFound | notDirectory | isDirectory | nameTooLong
  deriving DecidableEq, Repr

def longestName : Nat := 255

def longestPath : Nat := 4095

/-- The location that the rest of a path leads to. -/
def walk (t : FileTree) : Location → List (List Char) → Except Fault Location
  | l, [] => if t.isFileAt l || t.isFolderAt l then .ok l else .error .notFound
  | l, piece :: rest =>
    if t.isFolderAt l then
      if piece = [] ∨ piece = ['.'] then t.walk l rest
      else if piece = ['.', '.'] then t.walk l.dropLast rest
      else if longestName < Utf8.width piece then .error .nameTooLong
      else t.walk (l ++ [piece]) rest
    else if t.isFileAt l then .error .notDirectory
    else .error .notFound

/-- The location of a path. The empty path has none. -/
def locate (t : FileTree) (cwd : Location) (p : Path) : Except Fault Location :=
  if longestPath < Utf8.width p.text then .error .nameTooLong
  else match p.text with
    | [] => .error .notFound
    | '/' :: rest => t.walk [] (rest.splitOn '/')
    | s => t.walk cwd (s.splitOn '/')

@[simp] theorem walk_write (t : FileTree) (l : Location) (bytes : ByteArray) (m : Location)
    (pieces : List (List Char)) : (t.write l bytes).walk m pieces = t.walk m pieces := by
  induction pieces generalizing m with
  | nil => simp [walk]
  | cons piece rest ih => simp [walk, ih]

@[simp] theorem locate_write (t : FileTree) (l : Location) (bytes : ByteArray) (cwd : Location)
    (p : Path) : (t.write l bytes).locate cwd p = t.locate cwd p := by
  simp [locate]

def isFile (t : FileTree) (cwd : Location) (p : Path) : Bool :=
  match t.locate cwd p with
  | .ok l => t.isFileAt l
  | .error _ => false

def isFolder (t : FileTree) (cwd : Location) (p : Path) : Bool :=
  match t.locate cwd p with
  | .ok l => !t.isFileAt l && t.isFolderAt l
  | .error _ => false

def read (t : FileTree) (cwd : Location) (p : Path) : Except Fault ByteArray := do
  let l ← t.locate cwd p
  match t.contents? l with
  | some bytes => .ok bytes
  | none => .error .isDirectory

theorem read_eq_ok_iff {t : FileTree} {cwd : Location} {p : Path} {bytes : ByteArray} :
    t.read cwd p = .ok bytes ↔ ∃ l, t.locate cwd p = .ok l ∧ t.contents? l = some bytes := by
  unfold read
  cases t.locate cwd p with
  | error f => simp [bind, Except.bind]
  | ok l =>
    simp only [bind, Except.bind]
    split <;> simp_all

/-- The names on the way from a directory to a file below it. -/
def below? (folder l : Location) : Option Location :=
  if folder.isPrefixOf l ∧ folder ≠ l then some (l.drop folder.length) else none

/-- The files at most `depth` levels below a directory, as paths that continue the path of the
directory. -/
def filesBelow (t : FileTree) (cwd : Location) (p : Path) (depth : Nat) : List Path :=
  match t.locate cwd p with
  | .error _ => []
  | .ok folder =>
    t.files.filterMap fun f =>
      (below? folder f.1).bind fun names =>
        if names.length ≤ depth then some (names.foldl Path.join p) else none

def absolute (l : Location) : Path := l.foldl Path.join ⟨['/']⟩

def Fault.message : Fault → String
  | .notFound => "No such file or directory (os error 2)"
  | .notDirectory => "Not a directory (os error 20)"
  | .isDirectory => "Is a directory (os error 21)"
  | .nameTooLong => "File name too long (os error 36)"

end FileTree

/-- What a run finds around it: the tree, the current directory, and the two places that may name
the home directory. -/
structure World where
  tree : FileTree := {}
  cwd : Location := []
  home : Option Path := none
  userProfile : Option Path := none

namespace World

def isFile (w : World) (p : Path) : Bool := w.tree.isFile w.cwd p

def isFolder (w : World) (p : Path) : Bool := w.tree.isFolder w.cwd p

def read (w : World) (p : Path) : Except FileTree.Fault ByteArray := w.tree.read w.cwd p

def here (w : World) : Path := FileTree.absolute w.cwd

def homeFolder (w : World) : Option Path := w.home <|> w.userProfile

end World
end HotkeyScript
