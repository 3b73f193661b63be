/-!
# Paths

A path is kept as it was written. Read as components, doubled and trailing slashes and full stops
inside it count for nothing; a full stop at its start counts, and so does a slash there. Two paths
are the same if their components are.
-/

namespace HotkeyScript

structure Path where
  text : List Char
  deriving DecidableEq, Repr

namespace Path

def ofString (s : String) : Path := ⟨s.toList⟩

def toString (p : Path) : String := .ofList p.text

/-- What a path starts from: the root, the current directory written as a full stop, or nothing. -/
inductive Anchor
  | root | here | bare
  deriving DecidableEq, Repr

def anchor (p : Path) : Anchor :=
  match p.text with
  | '/' :: _ => .root
  | ['.'] => .here
  | '.' :: '/' :: _ => .here
  | _ => .bare

def Anchor.text : Anchor → List Char
  | .root => ['/']
  | .here => ['.']
  | .bare => []

/-- What stands between the slashes after the anchor. -/
def pieces (p : Path) : List (List Char) := (p.text.drop p.anchor.text.length).splitOn '/'

/-- A piece that names nothing. -/
def isVoid (piece : List Char) : Bool := piece = [] || piece = ['.']

inductive Component
  | root | here | up
  | name (s : List Char)
  deriving DecidableEq, Repr

def Component.ofPiece (piece : List Char) : Component :=
  if piece = ['.', '.'] then .up else .name piece

def components (p : Path) : List Component :=
  (match p.anchor with
    | .root => [.root]
    | .here => [.here]
    | .bare => []) ++ (p.pieces.filter (!isVoid ·)).map .ofPiece

def same (p q : Path) : Bool := p.components = q.components

def names (p : Path) : List (List Char) :=
  p.components.filterMap fun
    | .name s => some s
    | _ => none

def ofPieces (a : Anchor) (pieces : List (List Char)) : Path :=
  ⟨a.text ++ ['/'].intercalate pieces⟩

/-- The directories above a path with these pieces, last piece first, from the nearest to the
farthest. -/
def above (a : Anchor) : List (List Char) → List Path
  | [] => if a = .here then [⟨[]⟩] else []
  | piece :: rest =>
    if isVoid piece then above a rest
    else ofPieces a (rest.dropWhile isVoid).reverse :: above a rest

def parents (p : Path) : List Path := above p.anchor p.pieces.reverse

def parent? (p : Path) : Option Path := p.parents.head?

def ancestors (p : Path) : List Path := p :: p.parents

/-- Add a name. A slash goes between, unless there is one or nothing comes before. -/
def join (p : Path) (name : List Char) : Path :=
  if p.text = [] ∨ p.text.getLast? = some '/' then ⟨p.text ++ name⟩ else ⟨p.text ++ '/' :: name⟩

def fileName? (p : Path) : Option (List Char) :=
  match p.components.getLast? with
  | some (.name s) => some s
  | _ => none

/-- What follows the last full stop of the file name, if something comes before it. -/
def extension? (p : Path) : Option (List Char) :=
  p.fileName?.bind fun name =>
    let ext := (name.reverse.takeWhile (· != '.')).reverse
    let stem := name.take (name.length - ext.length - 1)
    if '.' ∈ name ∧ stem ≠ [] then some ext else none

theorem same_refl (p : Path) : p.same p = true := by simp [same]

theorem same_iff (p q : Path) : p.same q = true ↔ p.components = q.components := by simp [same]

end Path
end HotkeyScript
