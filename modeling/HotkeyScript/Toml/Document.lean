import HotkeyScript.Toml.Table
import HotkeyScript.Toml.Scalar

/-!
# Files of settings

Values, pairs, headers and whole files. Arrays and inline tables may be nested, but not without
bound, and a dotted key has fewer parts than the bound.
-/

namespace HotkeyScript
namespace Toml

/-- The bound on nested values and on the parts of a key. -/
def nestingBound : Nat := 80

def isBareChar (c : Char) : Bool := c.isAlphanum || c == '-' || c == '_'

def simpleKey? (s : List Char) : Option (Key × List Char) :=
  match s with
  | '"' :: _ => basicString? s
  | '\'' :: _ => literalString? s
  | _ => if s.takeWhile isBareChar = [] then none
    else some (s.takeWhile isBareChar, s.dropWhile isBareChar)

def keyPart? (s : List Char) : Option (Key × List Char) :=
  (simpleKey? (skipSpace s)).map fun (k, r) => (k, skipSpace r)

def key? (s : List Char) : Option (List Key × List Char) := do
  let (k, r) ← keyPart? s
  let (ks, r) := many (fun s => (expect ['.'] s).bind keyPart?) r
  if nestingBound ≤ (k :: ks).length then none else return (k :: ks, r)

def separated {α : Type} (item : Reader α) (s : List Char) : List α × List Char :=
  match item s with
  | none => ([], s)
  | some (a, r) =>
    let (rest, t) := many (fun s => (expect [','] s).bind item) r
    (a :: rest, t)

/-- An item of an array with the blanks, line breaks and comments around it. -/
def arrayItem? (value : Reader Value) (s : List Char) : Option (Value × List Char) :=
  (value (skipGaps s)).map fun (v, r) => (v, skipGaps r)

/-- The rest of an array. A comma may follow the last item. -/
def array? (value : Reader Value) (s : List Char) : Option (Value × List Char) :=
  let (items, r) := separated (arrayItem? value) s
  let r := if items.isEmpty then r else (expect [','] r).getD r
  (expect [']'] (skipGaps r)).map fun r => (.array items, r)

def inlinePair? (value : Reader Value) (s : List Char) :
    Option ((List Key × Value) × List Char) := do
  let (k, r) ← key? s
  let (v, r) ← value (skipSpace (← expect ['='] r))
  return ((k, v), skipSpace r)

/-- The rest of an inline table. No comma follows the last pair. -/
def inlineTable? (value : Reader Value) (s : List Char) : Option (Value × List Char) := do
  let (pairs, r) := separated (inlinePair? value) s
  let r ← expect ['}'] (skipSpace r)
  if consistent pairs then return (.inline pairs, r) else none

def number? (s : List Char) : Option (Value × List Char) :=
  ((datetime? s).map fun r => (.datetime, r)) <|>
  ((decimalFloat? s <|> specialFloat? s).map fun r => (.float, r)) <|>
  ((integer? s).map fun (n, r) => (.integer n, r))

def scalar? (s : List Char) : Option (Value × List Char) :=
  match s with
  | '"' :: _ | '\'' :: _ => (string? s).map fun (t, r) => (.string t, r)
  | 't' :: _ => (expect ['t', 'r', 'u', 'e'] s).map fun r => (.boolean true, r)
  | 'f' :: _ => (expect ['f', 'a', 'l', 's', 'e'] s).map fun r => (.boolean false, r)
  | _ => number? s

/-- A value that holds at most `depth` further levels of arrays and inline tables. -/
def value? : (depth : Nat) → Reader Value
  | 0, s => scalar? s
  | depth + 1, s =>
    match s with
    | '[' :: r => array? (value? depth) r
    | '{' :: r => inlineTable? (value? depth) r
    | _ => scalar? s

inductive Statement
  | empty
  | pair (path : List Key) (value : Value)
  | header (header : Header)

def pair? (s : List Char) : Option (Statement × List Char) := do
  let (k, r) ← key? s
  let (v, r) ← value? (nestingBound - 1) (skipSpace (← expect ['='] r))
  return (.pair k v, ← lineEnd? r)

def header? (s : List Char) : Option (Statement × List Char) :=
  match s with
  | '[' :: '[' :: r => do
    let (k, r) ← key? r
    return (.header (.element k), ← lineEnd? (← expect [']', ']'] r))
  | '[' :: r => do
    let (k, r) ← key? r
    return (.header (.table k), ← lineEnd? (← expect [']'] r))
  | _ => none

def statement? (s : List Char) : Option (Statement × List Char) :=
  match skipSpace s with
  | [] => none
  | '#' :: r => (lineEnd? ('#' :: r)).map fun r => (.empty, r)
  | '[' :: r => header? ('[' :: r)
  | c :: r =>
    if c == '\n' || c == '\r' then (newline? (c :: r)).map fun r => (.empty, r) else pair? (c :: r)

/-- The pairs before the first header, and the sections. -/
def sections : List Statement → List (List Key × Value) × List Section
  | [] => ([], [])
  | .empty :: rest => sections rest
  | .pair k v :: rest => let (pairs, ss) := sections rest; ((k, v) :: pairs, ss)
  | .header h :: rest => let (pairs, ss) := sections rest; ([], ⟨h, pairs⟩ :: ss)

def statements? (s : List Char) : Option (List Statement) :=
  let (statements, r) := many statement? s
  if skipSpace r = [] then some statements else none

/-- A file may begin with a byte order mark. -/
def dropMark : List Char → List Char
  | '\uFEFF' :: s => s
  | s => s

/-- The table that a file makes, if the file is well-formed. -/
def parse? (s : List Char) : Option Table := do
  let (pairs, ss) := sections (← statements? (dropMark s))
  (← Table.addPairs {} pairs).addSections ss

end Toml
end HotkeyScript
