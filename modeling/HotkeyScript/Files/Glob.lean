import HotkeyScript.Files.Path

/-!
# Glob patterns

A pattern is compiled into tokens and matched against a whole text. A star stands for any run of
characters, slashes included, and a question mark for any one character. Two stars have to fill a
component of a path; they stand for nothing, for anything that ends in a slash, or for all that is
left. Square brackets hold a class of characters.
-/

namespace HotkeyScript
namespace Glob

/-- Members of a class: single characters and ranges, as pairs of bounds. -/
abbrev CharSet := List (Char × Char)

inductive Token
  | char (c : Char)
  | anyChar
  | anyRun
  | anyFolders
  | within (set : CharSet)
  | except (set : CharSet)
  deriving DecidableEq, Repr

inductive Fault
  | invalidRange (position : Nat)
  | misplacedFolders (position : Nat)
  | manyStars (position : Nat)
  deriving DecidableEq, Repr

def Fault.position : Fault → Nat
  | .invalidRange n | .misplacedFolders n | .manyStars n => n

def Fault.reason : Fault → String
  | .invalidRange _ => "invalid range pattern"
  | .misplacedFolders _ => "recursive wildcards must form a single path component"
  | .manyStars _ => "wildcards are either regular `*` or recursive `**`"

def Fault.message (f : Fault) : String :=
  "Pattern syntax error near position " ++ toString f.position ++ ": " ++ f.reason

def charSet : List Char → CharSet
  | a :: '-' :: b :: s => (a, b) :: charSet s
  | c :: s => (c, c) :: charSet s
  | [] => []

/-- The class after an opening bracket and the text after the closing one. The first character of
a class may be a closing bracket. -/
def bracket? : List Char → Option (Token × List Char)
  | '!' :: c :: s =>
    if ']' ∈ s then
      some (.except (charSet (c :: s.takeWhile (· != ']'))), (s.dropWhile (· != ']')).drop 1)
    else none
  | c :: s =>
    if c ≠ '!' ∧ ']' ∈ s then
      some (.within (charSet (c :: s.takeWhile (· != ']'))), (s.dropWhile (· != ']')).drop 1)
    else none
  | [] => none

theorem bracket?_length {s r : List Char} {t : Token} (h : bracket? s = some (t, r)) :
    r.length < s.length := by
  have hdrop : ∀ u : List Char, ((u.dropWhile (· != ']')).drop 1).length ≤ u.length := fun u => by
    have := (List.dropWhile_sublist (l := u) (· != ']')).length_le
    simp only [List.length_drop]
    omega
  unfold bracket? at h
  split at h
  · split at h
    · simp only [Option.some.injEq, Prod.mk.injEq] at h
      obtain ⟨-, rfl⟩ := h
      have := hdrop (by assumption)
      grind
    · simp at h
  · split at h
    · simp only [Option.some.injEq, Prod.mk.injEq] at h
      obtain ⟨-, rfl⟩ := h
      grind
    · simp at h
  · simp at h

/-- Compile a pattern from a position on, where `before` is the character that comes before it. -/
def compileFrom (position : Nat) (before : Option Char) : List Char → Except Fault (List Token)
  | [] => .ok []
  | '?' :: s => (.anyChar :: ·) <$> compileFrom (position + 1) (some '?') s
  | '*' :: '*' :: '*' :: _ => .error (.manyStars (position + 2))
  | '*' :: '*' :: s =>
    if before = none ∨ before = some '/' then
      match s with
      | [] => .ok [.anyFolders]
      | '/' :: r => (.anyFolders :: ·) <$> compileFrom (position + 3) (some '/') r
      | _ => .error (.misplacedFolders (position + 2))
    else .error (.misplacedFolders (position - 1))
  | '*' :: s => (.anyRun :: ·) <$> compileFrom (position + 1) (some '*') s
  | '[' :: s =>
    match h : bracket? s with
    | none => .error (.invalidRange position)
    | some (t, r) => (t :: ·) <$> compileFrom (position + 1 + (s.length - r.length)) (some ']') r
  | c :: s => (.char c :: ·) <$> compileFrom (position + 1) (some c) s
termination_by s => s.length
decreasing_by
  all_goals simp_wf
  all_goals first | omega | (have hr := bracket?_length h; omega)

def compile (s : List Char) : Except Fault (List Token) := compileFrom 0 none s

def inSet (set : CharSet) (c : Char) : Bool := set.any fun (lo, hi) => lo ≤ c && c ≤ hi

/-- How a text compares with a pattern. A text that ends while characters are still called for is
too short, and then no tail of it fits either. -/
inductive Verdict
  | fits | differs | tooShort
  deriving DecidableEq, Repr

/-- The first verdict on a tail of the text, the whole text included, that is not a difference. -/
def firstTail (judge : List Char → Verdict) : List Char → Verdict
  | [] => judge []
  | c :: s =>
    match judge (c :: s) with
    | .differs => firstTail judge s
    | v => v

/-- The same for the tails that come right after a slash, and for the empty one at the end. -/
def firstFolder (judge : List Char → Verdict) : List Char → Verdict
  | [] => judge []
  | c :: s =>
    if c = '/' then
      match judge s with
      | .differs => firstFolder judge s
      | v => v
    else firstFolder judge s

def Token.admits : Token → Char → Bool
  | .char d, c => c == d
  | .within set, c => inSet set c
  | .except set, c => !inSet set c
  | _, _ => true

/-- Compare a text with a pattern. Each token of variable length is tried at its shortest first; a
text that is too short ends the search. -/
def judge : List Token → List Char → Verdict
  | [], [] => .fits
  | [], _ :: _ => .differs
  | .anyRun :: ts, s => firstTail (judge ts) s
  | .anyFolders :: ts, s =>
    match judge ts s with
    | .differs => firstFolder (judge ts) s
    | v => v
  | _ :: _, [] => .tooShort
  | t :: ts, c :: s => if t.admits c then judge ts s else .differs

def accepts (ts : List Token) (s : List Char) : Bool := judge ts s = .fits

end Glob

/-- A pattern matches a path as a whole, or one of the names in it. -/
def Path.isMatchedBy (p : Path) (tokens : List Glob.Token) : Bool :=
  Glob.accepts tokens p.text || p.names.any (Glob.accepts tokens)

end HotkeyScript
