import HotkeyScript.Line.Scan
import HotkeyScript.Text.Basic
import HotkeyScript.Text.Utf8
import HotkeyScript.Text.Word

/-!
# The skeleton of a line

The shape of a line is read off its start: its first token and the tail after it, the assignment
operators, the keywords, and the marks of block comments. Letters match in either case. Each
recogniser also reports the spans of its parts as byte offsets.

Layout looks at the brackets of a line and at nothing else. The skeleton of a line is what is left
for that purpose: the line as scanned and trimmed, except that a command invocation, whose
arguments are plain text, is cut down to the name of the command.
-/

namespace HotkeyScript
namespace Line

open Text

/-- Characters of a first token: word characters and the three signs of names and directives. -/
def isTokenChar (c : Char) : Bool := isWord c || c == '#' || c == '@' || c == '$'

/-- The first token of a line and the tail after it. The tail stays on one line. -/
def firstToken? (s : List Char) : Option (List Char × List Char) :=
  let body := trimStart s
  let token := body.takeWhile isTokenChar
  let tail := body.dropWhile isTokenChar
  if token = [] ∨ '\n' ∈ tail then none else some (token, tail)

def assignmentOperators : List String :=
  [":=", "//=", "<<=", ">>=", "-=", "+=", "*=", "/=", ".=", "|=", "&=", "^=", "=", "++", "--"]

/-- The assignment operator that a tail begins with, after blanks. -/
def assignment? (tail : List Char) : Option (List Char) :=
  (assignmentOperators.map String.toList).find? (·.isPrefixOf (trimStart tail))

/-- Words that take an expression, and may open a block, even when a blank follows them. -/
def keywords : List String :=
  ["if", "else", "while", "loop", "for", "try", "catch", "finally", "return", "switch", "case",
    "default", "until", "throw", "global", "local", "static", "class"]

def isKeyword (token : List Char) : Bool := keywords.any (spells · token)

def opensComment (s : List Char) : Bool := ['/', '*'].isPrefixOf (trimStart s)

def closesComment (s : List Char) : Bool := ['*', '/'].isPrefixOf (trimStart s)

/-- The text before the first run of two or more spaces, and that run. -/
def spaceRun? : List Char → Option (List Char × List Char)
  | [] => none
  | c :: s =>
    if c = ' ' ∧ s.head? = some ' ' then some ([], c :: s.takeWhile (· = ' '))
    else (spaceRun? s).map fun (before, run) => (c :: before, run)

theorem firstToken?_eq_some {s token tail : List Char} (h : firstToken? s = some (token, tail)) :
    trimStart s = token ++ tail ∧ token ≠ [] ∧ '\n' ∉ tail ∧ ∀ c ∈ token, isTokenChar c = true := by
  dsimp only [firstToken?] at h
  split at h
  · simp at h
  · next hn =>
    simp only [Option.some.injEq, Prod.mk.injEq] at h
    obtain ⟨rfl, rfl⟩ := h
    refine ⟨List.takeWhile_append_dropWhile.symm, fun h => hn (.inl h), fun h => hn (.inr h), ?_⟩
    simpa only [List.all_eq_true] using List.all_takeWhile (p := isTokenChar) (l := trimStart s)

/-- Part of a text, with the offsets of its first byte and of the byte after its last. -/
structure Span where
  start : Nat
  stop : Nat
  text : List Char
  deriving DecidableEq, Repr

/-- The span of `s` in a text where it comes after `before`. -/
def Span.after (before s : List Char) : Span :=
  ⟨Utf8.width before, Utf8.width before + Utf8.width s, s⟩

inductive Pattern
  | firstToken | assignmentTail | keyword | commentOpening | commentClosing | spaceRun
  deriving DecidableEq, Repr

/-- The spans of the first match: the whole of it, then its parts. -/
def Pattern.find? (s : List Char) : Pattern → Option (List Span)
  | .firstToken => do
    let (token, tail) ← firstToken? s
    let blanks := s.takeWhile isBlank
    return [.after [] s, .after blanks token, .after (blanks ++ token) tail]
  | .assignmentTail => do
    let operator ← assignment? s
    let blanks := s.takeWhile isBlank
    return [.after [] (blanks ++ operator), .after blanks operator]
  | .keyword => if isKeyword s then some [.after [] s, .after [] s] else none
  | .commentOpening =>
    if opensComment s then some [.after [] (s.takeWhile isBlank ++ ['/', '*'])] else none
  | .commentClosing =>
    if closesComment s then some [.after [] (s.takeWhile isBlank ++ ['*', '/'])] else none
  | .spaceRun => (spaceRun? s).map fun (before, run) => [.after before run]

/-- How the first token of a line is used: called with arguments, invoked as a command, alone on
its line, or in any other way, in which case the line keeps its structure. -/
inductive Kind
  | expression | command | bare | structured
  deriving DecidableEq, Repr

/-- A comma or a blank after the first token. -/
def startsArguments (tail : List Char) : Bool :=
  match tail with
  | [] => false
  | c :: _ => c == ',' || isBlank c

def kind (s : List Char) : Kind :=
  match firstToken? s with
  | none => .structured
  | some (token, tail) =>
    if tail.head? = some '(' then .expression
    else if trimEnd tail = [] then .bare
    else if !startsArguments tail then .structured
    else if isKeyword token || (assignment? tail).isSome then .structured
    else .command

/-- The line as scanned, without the blanks around it. -/
def scanned (s : List Char) : List Char := trim (Scan.kept .code s)

def skeleton (s : List Char) : List Char :=
  match kind s, firstToken? s with
  | .command, some (token, _) => token
  | _, _ => scanned s

end Line

namespace Bracket

/-- Opening minus closing brackets of one sort. -/
def balance (opening closing : Char) (s : List Char) : Int :=
  (s.count opening : Int) - s.count closing

def parens (s : List Char) : Int := balance '(' ')' s

def braces (s : List Char) : Int := balance '{' '}' s

def leavesOpen (s : List Char) : Bool := 0 < parens s

def closesMore (s : List Char) : Bool := parens s < 0

@[simp] theorem balance_nil (a b : Char) : balance a b [] = 0 := rfl

theorem balance_append (a b : Char) (s t : List Char) :
    balance a b (s ++ t) = balance a b s + balance a b t := by
  simp only [balance, List.count_append]
  omega

end Bracket
end HotkeyScript
