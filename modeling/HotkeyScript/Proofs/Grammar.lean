import HotkeyScript.Proofs.Skeleton

/-!
# The grammar of a line

A line is a sequence of pieces with a tail behind them. A piece is a plain character, an escape or
a closed literal; the tail is empty, or an escape or a literal that the end of the line cuts short,
or a comment. The first character that has not been read decides what comes next, so every line has
one reading and no other. Of each piece and of the tail a scan keeps what the grammar says, and the
tail alone decides the state in which the scan ends.
-/

namespace HotkeyScript
namespace Scan

def isInner (c : Char) : Bool := c != '"' && c != '`'

/-- A character inside a literal, or two of them of which the first escapes the second. -/
inductive Inner
  | plain (c : Char) (hc : isInner c = true)
  | escape (c : Char)
  deriving DecidableEq

inductive Piece
  | plain (c : Char) (hc : isPlain c = true)
  | escape (c : Char)
  | literal (body : List Inner)
  deriving DecidableEq

/-- How a line ends after its last piece. A literal that is not closed may end in a lone escape. -/
inductive Tail
  | none
  | escape
  | literal (body : List Inner) (cut : Bool)
  | comment (text : List Char)
  deriving DecidableEq

structure Reading where
  pieces : List Piece
  tail : Tail
  deriving DecidableEq

def Inner.text : Inner → List Char
  | .plain c _ => [c]
  | .escape c => ['`', c]

def Piece.text : Piece → List Char
  | .plain c _ => [c]
  | .escape c => ['`', c]
  | .literal body => '"' :: (body.flatMap Inner.text ++ ['"'])

def Piece.kept : Piece → List Char
  | .plain c _ => [c]
  | .escape c => ['`', c]
  | .literal _ => ['"', '"']

def cutEscape (cut : Bool) : List Char := if cut then ['`'] else []

def Tail.text : Tail → List Char
  | .none => []
  | .escape => ['`']
  | .literal body cut => '"' :: (body.flatMap Inner.text ++ cutEscape cut)
  | .comment text => ';' :: text

def Tail.kept : Tail → List Char
  | .none => []
  | .escape => ['`']
  | .literal _ _ => ['"']
  | .comment _ => []

def Tail.state : Tail → State
  | .none => .code
  | .escape => .codeEscaped
  | .literal _ false => .string
  | .literal _ true => .stringEscaped
  | .comment _ => .comment

namespace Reading

def text (r : Reading) : List Char := r.pieces.flatMap Piece.text ++ r.tail.text

def kept (r : Reading) : List Char := r.pieces.flatMap Piece.kept ++ r.tail.kept

def cons (p : Piece) (r : Reading) : Reading := { r with pieces := p :: r.pieces }

@[simp] theorem text_cons (p : Piece) (r : Reading) : (r.cons p).text = p.text ++ r.text := by
  simp [cons, text]

end Reading

/-- A reading from inside a literal on: what is left of the literal, and the reading of what stands
behind it if it is closed. -/
inductive Inside
  | closed (body : List Inner) (rest : Reading)
  | unclosed (body : List Inner) (cut : Bool)

namespace Inside

def text : Inside → List Char
  | .closed body rest => body.flatMap Inner.text ++ '"' :: rest.text
  | .unclosed body cut => body.flatMap Inner.text ++ cutEscape cut

def cons (u : Inner) : Inside → Inside
  | .closed body rest => .closed (u :: body) rest
  | .unclosed body cut => .unclosed (u :: body) cut

def quoted : Inside → Reading
  | .closed body rest => rest.cons (.literal body)
  | .unclosed body cut => ⟨[], .literal body cut⟩

@[simp] theorem text_cons (u : Inner) (i : Inside) : (i.cons u).text = u.text ++ i.text := by
  cases i <;> simp [cons, text]

@[simp] theorem text_quoted (i : Inside) : i.quoted.text = '"' :: i.text := by
  cases i with
  | closed body rest => simp [quoted, text, Piece.text]
  | unclosed body cut => simp [quoted, text, Reading.text, Tail.text]

end Inside

mutual

def Reading.ofLine : List Char → Reading
  | [] => ⟨[], .none⟩
  | c :: s =>
    if h : isPlain c = true then (Reading.ofLine s).cons (.plain c h)
    else if c = '"' then (Inside.ofLine s).quoted
    else if c = ';' then ⟨[], .comment s⟩
    else match s with
      | [] => ⟨[], .escape⟩
      | d :: s => (Reading.ofLine s).cons (.escape d)

def Inside.ofLine : List Char → Inside
  | [] => .unclosed [] false
  | c :: s =>
    if h : isInner c = true then (Inside.ofLine s).cons (.plain c h)
    else if c = '"' then .closed [] (Reading.ofLine s)
    else match s with
      | [] => .unclosed [] true
      | d :: s => (Inside.ofLine s).cons (.escape d)

end

section Equations

variable {c : Char} (s : List Char)

@[simp] theorem ofLine_nil : Reading.ofLine [] = ⟨[], .none⟩ := by rw [Reading.ofLine]

@[simp] theorem ofLine_plain (hc : isPlain c = true) :
    Reading.ofLine (c :: s) = (Reading.ofLine s).cons (.plain c hc) := by
  rw [Reading.ofLine.eq_def]
  simp [hc]

@[simp] theorem ofLine_quote : Reading.ofLine ('"' :: s) = (Inside.ofLine s).quoted := by
  rw [Reading.ofLine.eq_def]
  simp [isPlain]

@[simp] theorem ofLine_semicolon : Reading.ofLine (';' :: s) = ⟨[], .comment s⟩ := by
  rw [Reading.ofLine.eq_def]
  simp [isPlain]

@[simp] theorem ofLine_cut : Reading.ofLine ['`'] = ⟨[], .escape⟩ := by
  simp [Reading.ofLine, isPlain]

@[simp] theorem ofLine_escape :
    Reading.ofLine ('`' :: c :: s) = (Reading.ofLine s).cons (.escape c) := by
  simp [Reading.ofLine, isPlain]

@[simp] theorem inside_nil : Inside.ofLine [] = .unclosed [] false := by rw [Inside.ofLine]

@[simp] theorem inside_plain (hc : isInner c = true) :
    Inside.ofLine (c :: s) = (Inside.ofLine s).cons (.plain c hc) := by
  rw [Inside.ofLine.eq_def]
  simp [hc]

@[simp] theorem inside_quote : Inside.ofLine ('"' :: s) = .closed [] (Reading.ofLine s) := by
  rw [Inside.ofLine.eq_def]
  simp [isInner]

@[simp] theorem inside_cut : Inside.ofLine ['`'] = .unclosed [] true := by
  simp [Inside.ofLine, isInner]

@[simp] theorem inside_escape :
    Inside.ofLine ('`' :: c :: s) = (Inside.ofLine s).cons (.escape c) := by
  simp [Inside.ofLine, isInner]

end Equations

theorem isPlain_or (c : Char) : isPlain c = true ∨ c = '"' ∨ c = ';' ∨ c = '`' := by
  simp only [isPlain, Bool.and_eq_true, bne_iff_ne]
  tauto

theorem isInner_or (c : Char) : isInner c = true ∨ c = '"' ∨ c = '`' := by
  simp only [isInner, Bool.and_eq_true, bne_iff_ne]
  tauto

mutual

theorem text_ofLine (s : List Char) : (Reading.ofLine s).text = s := by
  match s with
  | [] => simp [Reading.text, Tail.text]
  | c :: s =>
    rcases isPlain_or c with hc | rfl | rfl | rfl
    · simp [hc, Piece.text, text_ofLine s]
    · simp [inside_text_ofLine s]
    · simp [Reading.text, Tail.text]
    · match s with
      | [] => simp [Reading.text, Tail.text]
      | d :: s => simp [Piece.text, text_ofLine s]

theorem inside_text_ofLine (s : List Char) : (Inside.ofLine s).text = s := by
  match s with
  | [] => simp [Inside.text, cutEscape]
  | c :: s =>
    rcases isInner_or c with hc | rfl | rfl
    · simp [hc, Inner.text, inside_text_ofLine s]
    · simp [Inside.text, text_ofLine s]
    · match s with
      | [] => simp [Inside.text, cutEscape]
      | d :: s => simp [Inner.text, inside_text_ofLine s]

end

theorem ofLine_inner (u : Inner) (s : List Char) :
    Inside.ofLine (u.text ++ s) = (Inside.ofLine s).cons u := by
  cases u with
  | plain c hc => exact inside_plain s hc
  | escape c => exact inside_escape s

theorem ofLine_body_closed (body : List Inner) (s : List Char) :
    Inside.ofLine (body.flatMap Inner.text ++ '"' :: s) = .closed body (Reading.ofLine s) := by
  induction body with
  | nil => exact inside_quote s
  | cons u body ih => rw [List.flatMap_cons, List.append_assoc, ofLine_inner, ih, Inside.cons]

theorem ofLine_body_unclosed (body : List Inner) (cut : Bool) :
    Inside.ofLine (body.flatMap Inner.text ++ cutEscape cut) = .unclosed body cut := by
  induction body with
  | nil =>
    cases cut with
    | false => exact inside_nil
    | true => exact inside_cut
  | cons u body ih => rw [List.flatMap_cons, List.append_assoc, ofLine_inner, ih, Inside.cons]

theorem ofLine_piece (p : Piece) (s : List Char) :
    Reading.ofLine (p.text ++ s) = (Reading.ofLine s).cons p := by
  cases p with
  | plain c hc => exact ofLine_plain s hc
  | escape c => exact ofLine_escape s
  | literal body => simp [Piece.text, ofLine_body_closed, Inside.quoted]

theorem ofLine_tail (t : Tail) : Reading.ofLine t.text = ⟨[], t⟩ := by
  cases t with
  | none => exact ofLine_nil
  | escape => exact ofLine_cut
  | literal body cut => simp [Tail.text, ofLine_body_unclosed, Inside.quoted]
  | comment text => exact ofLine_semicolon text

/-- A reading is the reading of what it spells, so no other one spells the same line. -/
theorem ofLine_text (r : Reading) : Reading.ofLine r.text = r := by
  obtain ⟨pieces, tail⟩ := r
  unfold Reading.text
  induction pieces with
  | nil => exact ofLine_tail tail
  | cons p pieces ih => rw [List.flatMap_cons, List.append_assoc, ofLine_piece, ih, Reading.cons]

/-- From state `q`, a scan of `s` keeps `out` and ends in state `p`. -/
structure Scans (q : State) (s out : List Char) (p : State) : Prop where
  keeps : kept q s = out
  reaches : q.after s = p

theorem Scans.append {q p r : State} {s t out out' : List Char} (h : Scans q s out p)
    (h' : Scans p t out' r) : Scans q (s ++ t) (out ++ out') r := by
  refine ⟨?_, ?_⟩
  · rw [kept_append, h.keeps, h.reaches, h'.keeps]
  · rw [after_append, h.reaches, h'.reaches]

theorem next_string_of_isInner {c : Char} (h : isInner c = true) :
    State.string.next c = (.string, .dropped) := by
  simp only [isInner, Bool.and_eq_true, bne_iff_ne, ne_eq] at h
  unfold State.next
  split <;> simp_all

theorem scans_inner (u : Inner) : Scans .string u.text [] .string := by
  cases u with
  | plain c hc =>
    have hnext := next_string_of_isInner hc
    exact ⟨by simp [Inner.text, kept, hnext], by simp [Inner.text, hnext]⟩
  | escape c => exact ⟨rfl, rfl⟩

theorem scans_body (body : List Inner) : Scans .string (body.flatMap Inner.text) [] .string := by
  induction body with
  | nil => exact ⟨rfl, rfl⟩
  | cons u body ih => exact (scans_inner u).append ih

theorem scans_quote : Scans .code ['"'] ['"'] .string := ⟨rfl, rfl⟩

theorem scans_piece (p : Piece) : Scans .code p.text p.kept .code := by
  cases p with
  | plain c hc =>
    have hnext := next_code_of_isPlain hc
    exact ⟨by simp [Piece.text, Piece.kept, Scan.kept, hnext], by simp [Piece.text, hnext]⟩
  | escape c => exact ⟨rfl, rfl⟩
  | literal body =>
    have hclose : Scans .string ['"'] ['"'] .code := ⟨rfl, rfl⟩
    exact scans_quote.append ((scans_body body).append hclose)

theorem scans_pieces (ps : List Piece) :
    Scans .code (ps.flatMap Piece.text) (ps.flatMap Piece.kept) .code := by
  induction ps with
  | nil => exact ⟨rfl, rfl⟩
  | cons p ps ih => exact (scans_piece p).append ih

theorem scans_tail (t : Tail) : Scans .code t.text t.kept t.state := by
  cases t with
  | none => exact ⟨rfl, rfl⟩
  | escape => exact ⟨rfl, rfl⟩
  | literal body cut =>
    have hcut : Scans .string (cutEscape cut) [] (Tail.literal body cut).state := by
      cases cut <;> exact ⟨rfl, rfl⟩
    exact scans_quote.append ((scans_body body).append hcut)
  | comment text => exact ⟨kept_comment text, after_comment text⟩

theorem scans_reading (r : Reading) : Scans .code r.text r.kept r.tail.state :=
  (scans_pieces r.pieces).append (scans_tail r.tail)

theorem after_advance (q : State) (n : Nat) (s : List Char) :
    (advance q n s).2.state.after (advance q n s).2.ahead = q.after s := by
  induction s generalizing q n with
  | nil => rfl
  | cons c s ih =>
    unfold advance
    split
    · rfl
    · split
      · next h => simp [h]
      · next h =>
        rw [ih, after_cons, h]

theorem advance_eq_none {q : State} {n : Nat} {s : List Char} (h : (advance q n s).1 = none) :
    (advance q n s).2.rest = [] ∧ (advance q n s).2.state = q.after s := by
  induction s generalizing q n with
  | nil => exact ⟨rfl, rfl⟩
  | cons c s ih =>
    unfold advance at h ⊢
    split
    · next hq =>
      subst hq
      exact ⟨kept_comment _, (after_comment _).symm⟩
    · next hq =>
      rw [if_neg hq] at h
      split
      · next hk => simp [hk] at h
      · next hk =>
        simp only [hk] at h
        rw [after_cons, hk]
        exact ih h

def reports (moves : List (Option (Nat × Char) × State)) : List (Option Char) :=
  moves.map fun m => m.1.map Prod.snd

theorem take_succ (n : Nat) (k : Cursor) :
    k.take (n + 1) =
      ((k.next.1, k.next.2.state) :: (k.next.2.take n).1, (k.next.2.take n).2) := rfl

/-- Moving a cursor on reports the characters that are kept, one after the other, and then nothing.
By that time the whole line counts for the state, though a comment is not read. -/
theorem take_rest (k : Cursor) :
    reports (k.take (k.rest.length + 1)).1 = k.rest.map some ++ [none] ∧
      (k.take (k.rest.length + 1)).2.state = k.state.after k.ahead := by
  have hmove : k.rest = (k.next.1.map Prod.snd).toList ++ k.next.2.rest := kept_advance _ _ _
  cases hitem : k.next.1 with
  | none =>
    obtain ⟨hrest, hstate⟩ : k.next.2.rest = [] ∧ k.next.2.state = k.state.after k.ahead :=
      advance_eq_none hitem
    have hnil : k.rest = [] := by simpa [hitem, hrest] using hmove
    rw [hnil]
    exact ⟨by simp [Cursor.take, reports, hitem], hstate⟩
  | some item =>
    have hcons : k.rest = item.2 :: k.next.2.rest := by simpa [hitem] using hmove
    have hlength : k.next.2.rest.length < k.rest.length := by simp [hcons]
    have hahead : k.next.2.state.after k.next.2.ahead = k.state.after k.ahead :=
      after_advance _ _ _
    obtain ⟨hitems, hstate⟩ := take_rest k.next.2
    rw [hcons, List.length_cons, take_succ, ← hahead]
    exact ⟨by simpa [reports, hitem] using hitems, hstate⟩
termination_by k.rest.length

/-- Scanning follows the grammar. Every line has one reading and no other. A scan of the line keeps
what is kept of that reading and ends in the state that its tail says, and a cursor that is moved
from the start of the line until it reports nothing reports just that and is in just that state. -/
theorem scan_follows_grammar (line : List Char) :
    ∃ r : Reading, r.text = line ∧ (∀ r' : Reading, r'.text = line → r' = r) ∧
      kept .code line = r.kept ∧ State.code.after line = r.tail.state ∧
      reports (Cursor.take (r.kept.length + 1) { ahead := line }).1 = r.kept.map some ++ [none] ∧
      (Cursor.take (r.kept.length + 1) { ahead := line }).2.state = r.tail.state := by
  have htext : (Reading.ofLine line).text = line := text_ofLine line
  have hscan := scans_reading (Reading.ofLine line)
  rw [htext] at hscan
  have hcursor := take_rest { ahead := line }
  have hrest : Cursor.rest { ahead := line } = (Reading.ofLine line).kept := hscan.keeps
  rw [hrest] at hcursor
  refine ⟨Reading.ofLine line, htext, ?_, hscan.keeps, hscan.reaches, hcursor.1, ?_⟩
  · rintro r' rfl
    exact (ofLine_text r').symm
  · exact hcursor.2.trans hscan.reaches

end Scan
end HotkeyScript
