/-!
# Scalars

Strings, numbers, truth values, dates and times, each read from the front of a text. A reader gives
what it read and the text after it.
-/

namespace HotkeyScript
namespace Toml

abbrev Reader (α : Type) := List Char → Option (α × List Char)

/-- Read items one after another, at most one for each character of `fuel`. -/
def manyAlong {α : Type} (item : Reader α) (fuel s : List Char) : List α × List Char :=
  match fuel with
  | [] => ([], s)
  | _ :: fuel =>
    match item s with
    | none => ([], s)
    | some (a, r) =>
      let (rest, t) := manyAlong item fuel r
      (a :: rest, t)

/-- Read items one after another for as long as there is one. Every item takes up at least one
character, so the text itself bounds their number. -/
def many {α : Type} (item : Reader α) (s : List Char) : List α × List Char := manyAlong item s s

@[simp] theorem many_nil {α : Type} (item : Reader α) : many item [] = ([], []) := rfl

/-- The text after `p`, if the text begins with `p`. -/
def expect (p : List Char) (s : List Char) : Option (List Char) :=
  if p.isPrefixOf s then some (s.drop p.length) else none

def isSpace (c : Char) : Bool := c == ' ' || c == '\t'

def skipSpace (s : List Char) : List Char := s.dropWhile isSpace

def newline? : List Char → Option (List Char)
  | '\n' :: s => some s
  | '\r' :: '\n' :: s => some s
  | _ => none

/-- Any character but the control characters; a tab is allowed. -/
def isPrintable (c : Char) : Bool := c == '\t' || (0x20 ≤ c.toNat && c.toNat != 0x7F)

/-- The text after a comment, which ends before the line break. -/
def comment? : List Char → Option (List Char)
  | '#' :: s => some (s.dropWhile isPrintable)
  | _ => none

/-- A blank, a line break, or a comment with its line break. -/
def gap? : Reader Unit
  | [] => none
  | c :: s =>
    if isSpace c then some ((), s)
    else if c == '#' then ((comment? (c :: s)).bind newline?).map fun r => ((), r)
    else (newline? (c :: s)).map fun r => ((), r)

def skipGaps (s : List Char) : List Char := (many gap? s).2

/-- The end of a line: blanks, a comment if there is one, and a line break or the end of the text. -/
def lineEnd? (s : List Char) : Option (List Char) :=
  let s := skipSpace s
  let s := (comment? s).getD s
  if s = [] then some [] else newline? s

def hexValue? (c : Char) : Option Nat :=
  if '0' ≤ c && c ≤ '9' then some (c.toNat - '0'.toNat)
  else if 'a' ≤ c && c ≤ 'f' then some (c.toNat - 'a'.toNat + 10)
  else if 'A' ≤ c && c ≤ 'F' then some (c.toNat - 'A'.toNat + 10)
  else none

/-- The character of a code point; surrogates are none. -/
def charOf? (n : Nat) : Option Char := if n.isValidChar then some (Char.ofNat n) else none

/-- A code point in exactly `n` hexadecimal digits. -/
def codePoint? (n : Nat) (s : List Char) : Option (Char × List Char) := do
  let digits ← (s.take n).mapM hexValue?
  if digits.length = n then
    return (← charOf? (digits.foldl (fun acc d => 16 * acc + d) 0), s.drop n)
  else none

/-- What may follow a backslash. -/
def escape? : Reader Char
  | 'b' :: s => some ('\x08', s)
  | 't' :: s => some ('\t', s)
  | 'n' :: s => some ('\n', s)
  | 'f' :: s => some ('\x0C', s)
  | 'r' :: s => some ('\r', s)
  | '"' :: s => some ('"', s)
  | '\\' :: s => some ('\\', s)
  | 'u' :: s => codePoint? 4 s
  | 'U' :: s => codePoint? 8 s
  | _ => none

def basicChar? : Reader (List Char)
  | '\\' :: s => (escape? s).map fun (c, r) => ([c], r)
  | c :: s => if c != '"' && isPrintable c then some ([c], s) else none
  | [] => none

def basicString? : Reader (List Char)
  | '"' :: s =>
    let (parts, r) := many basicChar? s
    (expect ['"'] r).map fun r => (parts.flatten, r)
  | _ => none

def isLiteralChar (c : Char) : Bool := c != '\'' && isPrintable c

def literalString? : Reader (List Char)
  | '\'' :: s => (expect ['\''] (s.dropWhile isLiteralChar)).map fun r => (s.takeWhile isLiteralChar, r)
  | _ => none

/-- One character of a string in three double quotes. A backslash before a line break takes away the
line break and all blanks and line breaks after it. -/
def longBasicChar? : Reader (List Char)
  | '\\' :: s =>
    match newline? (skipSpace s) with
    | some r => some ([], (many (fun s => match s with
        | c :: t => if isSpace c then some ((), t) else (newline? (c :: t)).map fun r => ((), r)
        | [] => none) r).2)
    | none => (escape? s).map fun (c, r) => ([c], r)
  | '"' :: s => if ['"', '"'].isPrefixOf s then none else some (['"'], s)
  | s =>
    match newline? s with
    | some r => some (['\n'], r)
    | none =>
      match s with
      | c :: r => if isPrintable c then some ([c], r) else none
      | [] => none

def longLiteralChar? : Reader (List Char)
  | '\'' :: s => if ['\'', '\''].isPrefixOf s then none else some (['\''], s)
  | s =>
    match newline? s with
    | some r => some (['\n'], r)
    | none =>
      match s with
      | c :: r => if isPrintable c then some ([c], r) else none
      | [] => none

/-- A string between three quotes, and up to two more of them right before the closing ones. A line
break right after the opening quotes is left out. -/
def longString? (quote : Char) (item : Reader (List Char)) (s : List Char) :
    Option (List Char × List Char) := do
  let s ← expect (List.replicate 3 quote) s
  let (parts, r) := many item ((newline? s).getD s)
  let quotes := r.takeWhile (· == quote)
  if quotes.length < 3 then none
  else
    let extra := min (quotes.length - 3) 2
    return (parts.flatten ++ List.replicate extra quote, r.drop (extra + 3))

def string? (s : List Char) : Option (List Char × List Char) :=
  longString? '"' longBasicChar? s <|> basicString? s <|> longString? '\'' longLiteralChar? s <|>
    literalString? s

/-- Digits after the first, where an underscore may stand between two digits. -/
def moreDigits (digit : Char → Bool) : List Char → List Char × List Char
  | [] => ([], [])
  | '_' :: c :: s =>
    if digit c then let (ds, r) := moreDigits digit s; (c :: ds, r) else ([], '_' :: c :: s)
  | c :: s => if digit c then let (ds, r) := moreDigits digit s; (c :: ds, r) else ([], c :: s)

/-- The digits of a numeral that may begin with zeros, without the underscores. -/
def digits? (digit : Char → Bool) : Reader (List Char)
  | c :: s => if digit c then let (ds, r) := moreDigits digit s; some (c :: ds, r) else none
  | [] => none

/-- The digits of a decimal numeral. Zero stands alone. -/
def decimal? : Reader (List Char)
  | '0' :: s => some (['0'], s)
  | s => digits? Char.isDigit s

def sign : List Char → Bool × List Char
  | '-' :: s => (true, s)
  | '+' :: s => (false, s)
  | s => (false, s)

/-- Integers have 64 bits and a sign. -/
def bounded (n : Int) : Option Int :=
  if Int64.minValue.toInt ≤ n ∧ n ≤ Int64.maxValue.toInt then some n else none

def radixDigit (radix : Nat) (c : Char) : Bool := (hexValue? c).any (· < radix)

def radixInteger? (radix : Nat) (s : List Char) : Option (Int × List Char) := do
  let (ds, r) ← digits? (radixDigit radix) s
  let n := ds.foldl (fun acc d => radix * acc + (hexValue? d).getD 0) 0
  return (← bounded n, r)

def decimalInteger? (s : List Char) : Option (Int × List Char) := do
  let (negative, s) := sign s
  let (ds, r) ← decimal? s
  let n : Int := Nat.ofDigitChars 10 ds 0
  return (← bounded (if negative then -n else n), r)

def integer? (s : List Char) : Option (Int × List Char) :=
  match s with
  | '0' :: 'x' :: r => radixInteger? 16 r
  | '0' :: 'o' :: r => radixInteger? 8 r
  | '0' :: 'b' :: r => radixInteger? 2 r
  | _ => decimalInteger? s

def fraction? : Reader (List Char)
  | '.' :: s => digits? Char.isDigit s
  | _ => none

def exponent? : Reader Int
  | c :: s =>
    if c == 'e' || c == 'E' then do
      let (negative, s) := sign s
      let (ds, r) ← digits? Char.isDigit s
      let n : Int := Nat.ofDigitChars 10 ds 0
      return (if negative then -n else n, r)
    else none
  | [] => none

/-- Halfway between the largest double and the next power of two. -/
def pastDoubles : Nat := Nat.pow 2 1024 - Nat.pow 2 970

/-- `m * 10 ^ e` is too large for a double: it is rounded to infinity. -/
def overflows (m : Nat) (e : Int) : Bool :=
  let size : Int := (Nat.toDigits 10 m).length + e
  if m = 0 ∨ size < 300 then false
  else if 320 < size then true
  else if 0 ≤ e then pastDoubles ≤ m * Nat.pow 10 e.toNat
  else pastDoubles * Nat.pow 10 (-e).toNat ≤ m

/-- The text after a decimal float. One that is too large for a double is refused, unless it is
negative. -/
def decimalFloat? (s : List Char) : Option (List Char) := do
  let (negative, t) := sign s
  let (whole, t) ← decimal? t
  let (part, e, r) ← match fraction? t with
    | some (part, t) =>
      match exponent? t with
      | some (e, r) => some (part, e, r)
      | none => some (part, 0, t)
    | none => (exponent? t).map fun (e, r) => ([], e, r)
  if !negative && overflows (Nat.ofDigitChars 10 (whole ++ part) 0) (e - part.length) then none
  else return r

def specialFloat? (s : List Char) : Option (List Char) :=
  let t := (sign s).2
  expect ['i', 'n', 'f'] t <|> expect ['n', 'a', 'n'] t

/-- A number of exactly `n` digits, between `lo` and `hi`. -/
def field? (n lo hi : Nat) (s : List Char) : Option (Nat × List Char) :=
  let ds := s.take n
  let v := Nat.ofDigitChars 10 ds 0
  if ds.length = n ∧ ds.all Char.isDigit ∧ lo ≤ v ∧ v ≤ hi then some (v, s.drop n) else none

def daysIn (year month : Nat) : Nat :=
  if month = 2 then
    if year % 4 = 0 ∧ (year % 100 ≠ 0 ∨ year % 400 = 0) then 29 else 28
  else if month ∈ [4, 6, 9, 11] then 30
  else 31

def date? (s : List Char) : Option (List Char) := do
  let (year, s) ← field? 4 0 9999 s
  let (month, s) ← field? 2 1 12 (← expect ['-'] s)
  let (_, s) ← field? 2 1 (daysIn year month) (← expect ['-'] s)
  return s

/-- A time of day. A sixtieth second is allowed, and so is a fraction of any length. -/
def time? (s : List Char) : Option (List Char) := do
  let (_, s) ← field? 2 0 23 s
  let (_, s) ← field? 2 0 59 (← expect [':'] s)
  let (_, s) ← field? 2 0 60 (← expect [':'] s)
  match s with
  | '.' :: c :: r => return if c.isDigit then r.dropWhile Char.isDigit else s
  | _ => return s

def offset? (s : List Char) : Option (List Char) :=
  match s with
  | 'Z' :: r | 'z' :: r => some r
  | '+' :: r | '-' :: r => do
    let (_, r) ← field? 2 0 23 r
    let (_, r) ← field? 2 0 59 (← expect [':'] r)
    return r
  | _ => none

def timeAfterDate? : List Char → Option (List Char)
  | c :: s =>
    if c == 'T' || c == 't' || c == ' ' then (time? s).map fun r => (offset? r).getD r else none
  | [] => none

def datetime? (s : List Char) : Option (List Char) :=
  ((date? s).map fun r => (timeAfterDate? r).getD r) <|> time? s

end Toml
end HotkeyScript
