/-!
# Scanning a line

A line is read character by character. A double quote opens and closes a string literal, a backtick
makes the character after it literal both in code and in a string, and a semicolon in code starts a
comment that runs to the end of the line. Scanning keeps code, escapes in code and the quotes of
literals; the insides of literals and the comment are dropped.
-/

namespace HotkeyScript
namespace Scan

inductive State
  | code | codeEscaped | string | stringEscaped | comment
  deriving DecidableEq, Repr

inductive Fate
  | kept | dropped
  deriving DecidableEq, Repr

def State.inString : State → Bool
  | .string | .stringEscaped => true
  | _ => false

/-- The state after one character, and whether that character is kept. -/
def State.next : State → Char → State × Fate
  | .code, '"' => (.string, .kept)
  | .code, '`' => (.codeEscaped, .kept)
  | .code, ';' => (.comment, .dropped)
  | .code, _ => (.code, .kept)
  | .codeEscaped, _ => (.code, .kept)
  | .string, '"' => (.code, .kept)
  | .string, '`' => (.stringEscaped, .dropped)
  | .string, _ => (.string, .dropped)
  | .stringEscaped, _ => (.string, .dropped)
  | .comment, _ => (.comment, .dropped)

def State.after (q : State) (s : List Char) : State := s.foldl (fun q c => (q.next c).1) q

def trace (q : State) : List Char → List (State × Fate)
  | [] => []
  | c :: s => q.next c :: trace (q.next c).1 s

/-- The characters that a scan from `q` keeps. -/
def kept (q : State) : List Char → List Char
  | [] => []
  | c :: s =>
    match q.next c with
    | (q, .kept) => c :: kept q s
    | (q, .dropped) => kept q s

@[simp] theorem after_nil (q : State) : q.after [] = q := rfl

@[simp] theorem after_cons (q : State) (c : Char) (s : List Char) :
    q.after (c :: s) = (q.next c).1.after s := rfl

@[simp] theorem after_append (q : State) (s t : List Char) :
    q.after (s ++ t) = (q.after s).after t := by
  simp [State.after]

@[simp] theorem kept_nil (q : State) : kept q [] = [] := rfl

theorem kept_append (q : State) (s t : List Char) :
    kept q (s ++ t) = kept q s ++ kept (q.after s) t := by
  induction s generalizing q with
  | nil => rfl
  | cons c s ih =>
    simp only [List.cons_append, kept, after_cons]
    split <;> simp_all

@[simp] theorem after_comment (s : List Char) : State.comment.after s = .comment := by
  induction s with
  | nil => rfl
  | cons c s ih => simpa [State.next] using ih

@[simp] theorem kept_comment (s : List Char) : kept .comment s = [] := by
  induction s with
  | nil => rfl
  | cons c s ih => simpa [kept, State.next] using ih

theorem kept_sublist (q : State) (s : List Char) : (kept q s).Sublist s := by
  induction s generalizing q with
  | nil => exact .slnil
  | cons c s ih =>
    unfold kept
    split
    · exact (ih _).cons_cons c
    · exact (ih _).cons c

/-- A scan in progress: the characters ahead, the bytes behind, and the state between them. -/
structure Cursor where
  ahead : List Char
  offset : Nat := 0
  state : State := .code
  deriving DecidableEq, Repr

/-- Move to the next character that is kept, and report it with the offset of its first byte.
Nothing is read once a comment has begun. -/
def advance (q : State) (offset : Nat) : List Char → Option (Nat × Char) × Cursor
  | [] => (none, ⟨[], offset, q⟩)
  | c :: s =>
    if q = .comment then (none, ⟨c :: s, offset, q⟩)
    else match q.next c with
      | (q, .kept) => (some (offset, c), ⟨s, offset + c.utf8Size, q⟩)
      | (q, .dropped) => advance q (offset + c.utf8Size) s

def Cursor.next (k : Cursor) : Option (Nat × Char) × Cursor := advance k.state k.offset k.ahead

/-- `n` moves of a cursor, each with what it reported and the state it reached, and the cursor
after them. -/
def Cursor.take : Nat → Cursor → List (Option (Nat × Char) × State) × Cursor
  | 0, k => ([], k)
  | n + 1, k =>
    let (item, k) := k.next
    let (items, last) := take n k
    ((item, k.state) :: items, last)

def Cursor.rest (k : Cursor) : List Char := kept k.state k.ahead

/-- A move reports the first of the characters that are still to be kept. -/
theorem kept_advance (q : State) (n : Nat) (s : List Char) :
    kept q s = ((advance q n s).1.map Prod.snd).toList ++ (advance q n s).2.rest := by
  induction s generalizing q n with
  | nil => rfl
  | cons c s ih =>
    unfold advance
    by_cases hq : q = .comment
    · simp [hq, Cursor.rest]
    · rw [if_neg hq]
      rcases h : q.next c with ⟨p, _ | _⟩
      · simp [kept, h, Cursor.rest]
      · simpa [kept, h] using ih p _

end Scan
end HotkeyScript
