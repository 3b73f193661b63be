import HotkeyScript.Proofs.Reflow

/-!
# Runs over many lines

Three facts about the reflow of a list of lines. The blanks in front of a line outside comments are
not looked at, so lines that differ in them alone are rendered alike. Blank lines and comments are
trivia: they lead back to the state in front of them, so the lines around them are rendered as if
they were not there. And the state after a line is all that the lines behind it need, so a document
can be re-indented piece by piece.
-/

namespace HotkeyScript
namespace Reflow

open Text Line

/-- Outside comments, a style that keeps no blanks of continued lines looks at what stands after the
blanks and at nothing else. -/
theorem step_eq_of_trimStart_eq {style : Style} {q : State} {l l' : List Char}
    (hs : style.keepContinuation = false) (hq : q.inComment = false)
    (hl : trimStart l = trimStart l') : step style q l = step style q l' := by
  have hverbatim : isVerbatim style q l' = false := by simp [isVerbatim, hq, hs]
  exact step_congr hverbatim hl

/-- Reflow does not depend on the indentation that it finds. Two documents with as many lines, each
line the same in both or, outside comments, the same after its blanks, are rendered to the same
lines and lead to the same state. -/
theorem reflow_ignores_leading_blanks {style : Style} {q : State} {u v : List (List Char)}
    (hs : style.keepContinuation = false) (hlen : u.length = v.length)
    (h : ∀ (i : Nat) (hu : i < u.length) (hv : i < v.length), u[i] = v[i] ∨
      trimStart u[i] = trimStart v[i] ∧ (after style q (u.take i)).inComment = false) :
    render style q u = render style q v ∧ after style q u = after style q v := by
  induction u generalizing q v with
  | nil =>
    obtain rfl : v = [] := List.eq_nil_of_length_eq_zero hlen.symm
    exact ⟨rfl, rfl⟩
  | cons l u ih =>
    obtain ⟨l', v, rfl⟩ := List.exists_cons_of_length_eq_add_one hlen.symm
    have hstep : step style q l = step style q l' := by
      rcases h 0 (Nat.zero_lt_succ _) (Nat.zero_lt_succ _) with hl | ⟨hl, hq⟩
      · exact congrArg (step style q) hl
      · exact step_eq_of_trimStart_eq hs hq hl
    have hrest := ih (q := (step style q l).1) (v := v) (Nat.succ.inj hlen) fun i hu hv =>
      h (i + 1) (Nat.succ_lt_succ hu) (Nat.succ_lt_succ hv)
    rw [render_cons, render_cons, after_cons, after_cons, ← hstep, hrest.1, hrest.2]
    exact ⟨rfl, rfl⟩

def foundLines : List (List Char) :=
  ["if (a", "    b) \x7b", "\t/* x", "  y", "*/", "z"].map String.toList

def movedLines : List (List Char) :=
  ["\u00a0 if (a", "b) \x7b", "/* x", "  y", "*/", "\t\tz"].map String.toList

theorem reflow_ignores_leading_blanks_moved :
    render {} {} foundLines = render {} {} movedLines ∧
      after {} {} foundLines = after {} {} movedLines := by
  have hlen : foundLines.length = movedLines.length := rfl
  refine reflow_ignores_leading_blanks rfl hlen ?_
  decide

/-- Lines that are no part of the structure of a document: a blank line, a line that is a comment,
a block comment on one line, or a region. A region is a block comment that is closed on a later line
than it is opened on. -/
inductive Trivia : List (List Char) → Prop
  | blank {l : List Char} (hl : ∀ c ∈ l, isBlank c = true) : Trivia [l]
  | comment {l r : List Char} (hl : trimStart l = ';' :: r) : Trivia [l]
  | closed {l r : List Char} (hl : trimStart l = '/' :: '*' :: r) (hr : ['*', '/'] <:+: r) :
      Trivia [l]
  | region {first last r : List Char} {inside : List (List Char)}
      (hfirst : trimStart first = '/' :: '*' :: r) (hr : ¬['*', '/'] <:+: r)
      (hinside : ∀ l ∈ inside, ¬['*', '/'] <:+: l) (hlast : ['*', '/'] <:+: last) :
      Trivia (first :: (inside ++ [last]))

def interior (ls : List (List Char)) : List (List Char) := ls.tail.dropLast

theorem interior_region (first last : List Char) (inside : List (List Char)) :
    interior (first :: (inside ++ [last])) = inside := by
  simp [interior]

/-- A scan that begins with a semicolon keeps nothing, and the line has no first token. -/
theorem after_comment_line (style : Style) {q : State} {l r : List Char} (hq : q.inComment = false)
    (hl : trimStart l = ';' :: r) : (step style q l).1 = q := by
  have hscan : scanned l = [] := by
    have hkept : Scan.kept .code (';' :: r) = [] := Scan.kept_comment r
    rw [← scanned_trimStart, hl, scanned, hkept, trim_nil]
  have htoken : firstToken? l = none := by
    have hsemicolon : isTokenChar ';' = false := by decide
    simp [firstToken?, hl, hsemicolon]
  have hskel : skeleton l = [] := by
    have hkind : kind l ≠ .command := by simp [kind, htoken]
    rw [skeleton_of_ne_command hkind, hscan]
  have hopen : opensComment l = false := by
    rw [opensComment, hl]
    rfl
  exact after_of_skeleton_nil style hq hopen hscan hskel

theorem after_opening_line (style : Style) {q : State} {l r : List Char} (hq : q.inComment = false)
    (hl : trimStart l = '/' :: '*' :: r) :
    (step style q l).1 = { q with inComment := !holds ['*', '/'] r } := by
  have hopen : opensComment l = true := by
    rw [opensComment, hl]
    rfl
  simp [step, hq, hopen, openingStep, hl]

theorem after_region_opening (style : Style) {q : State} {l r : List Char}
    (hq : q.inComment = false) (hl : trimStart l = '/' :: '*' :: r) (hr : ¬['*', '/'] <:+: r) :
    (step style q l).1 = { q with inComment := true } := by
  rw [after_opening_line style hq hl, holds_eq_false_iff.mpr hr, Bool.not_false]

theorem infix_of_closesComment {l : List Char} (h : closesComment l = true) :
    ['*', '/'] <:+: l := by
  have hprefix : ['*', '/'] <+: trimStart l := List.isPrefixOf_iff_prefix.mp h
  exact hprefix.isInfix.trans (List.dropWhile_suffix isBlank).isInfix

theorem step_inside (style : Style) {q : State} {l : List Char} (hq : q.inComment = true)
    (hl : ¬['*', '/'] <:+: l) : step style q l = (q, l) := by
  have hclose : closesComment l = false := by
    rw [Bool.eq_false_iff]
    exact fun h => hl (infix_of_closesComment h)
  have hholds : holds ['*', '/'] l = false := holds_eq_false_iff.mpr hl
  obtain ⟨depth, continuation, inComment⟩ := q
  obtain rfl : inComment = true := hq
  simp [step, commentStep, hclose, hholds]

theorem after_closing_line (style : Style) {q : State} {l : List Char} (hq : q.inComment = true)
    (hl : ['*', '/'] <:+: l) : (step style q l).1 = { q with inComment := false } := by
  have hholds : holds ['*', '/'] l = true := holds_eq_true_iff.mpr hl
  simp only [step, hq, if_true, commentStep]
  split
  · rfl
  · rw [hholds, Bool.not_true]

/-- From inside a block comment, lines that do not close it are rendered to themselves and lead
nowhere else. -/
theorem run_inside (style : Style) {q : State} (hq : q.inComment = true) {ls : List (List Char)}
    (hls : ∀ l ∈ ls, ¬['*', '/'] <:+: l) : render style q ls = ls ∧ after style q ls = q := by
  induction ls with
  | nil => exact ⟨rfl, rfl⟩
  | cons l ls ih =>
    have hstep := step_inside style hq (hls l List.mem_cons_self)
    obtain ⟨hrender, hafter⟩ := ih fun l' hl' => hls l' (List.mem_cons_of_mem l hl')
    rw [render_cons, after_cons, hstep]
    exact ⟨congrArg (l :: ·) hrender, hafter⟩

/-- A region leads back to the state in front of it, and all its lines but the first and the last
one are rendered to themselves. -/
theorem run_region (style : Style) {q : State} {first last r : List Char}
    {inside : List (List Char)} (hq : q.inComment = false)
    (hfirst : trimStart first = '/' :: '*' :: r) (hr : ¬['*', '/'] <:+: r)
    (hinside : ∀ l ∈ inside, ¬['*', '/'] <:+: l) (hlast : ['*', '/'] <:+: last) :
    interior (render style q (first :: (inside ++ [last]))) = inside ∧
      after style q (first :: (inside ++ [last])) = q := by
  have hopened := after_region_opening style hq hfirst hr
  obtain ⟨hrender, hafter⟩ := run_inside style (q := { q with inComment := true }) rfl hinside
  constructor
  · rw [render_cons, hopened, render_append, hrender, render_cons, render_nil, interior_region]
  · rw [after_cons, hopened, after_append, hafter, after_cons, after_nil,
      after_closing_line style rfl hlast, ← hq]

namespace Trivia

variable {style : Style} {q : State} {ls : List (List Char)}

theorem after_eq (h : Trivia ls) (hq : q.inComment = false) : after style q ls = q := by
  cases h with
  | blank hl => exact after_blank style q hl
  | comment hl => exact after_comment_line style hq hl
  | closed hl hr =>
    rw [after_cons, after_nil, after_opening_line style hq hl, holds_eq_true_iff.mpr hr,
      Bool.not_true, ← hq]
  | region hfirst hr hinside hlast => exact (run_region style hq hfirst hr hinside hlast).2

theorem interior_render (h : Trivia ls) (hq : q.inComment = false) :
    interior (render style q ls) = interior ls := by
  cases h with
  | blank hl => rfl
  | comment hl => rfl
  | closed hl hr => rfl
  | region hfirst hr hinside hlast =>
    rw [(run_region style hq hfirst hr hinside hlast).1, interior_region]

end Trivia

/-- Trivia is transparent: the lines around it are rendered as they are without it and lead to the
same state, and the interior of a region is rendered to itself. -/
theorem trivia_is_transparent {style : Style} {q : State} {t : List (List Char)} (h : Trivia t)
    {a : List (List Char)} (ha : (after style q a).inComment = false) (b : List (List Char)) :
    ∃ ra rt rb : List (List Char),
      ra.length = a.length ∧ rt.length = t.length ∧ rb.length = b.length ∧
      render style q (a ++ t ++ b) = ra ++ rt ++ rb ∧ render style q (a ++ b) = ra ++ rb ∧
      after style q (a ++ t ++ b) = after style q (a ++ b) ∧ interior rt = interior t := by
  have hafter : after style q (a ++ t) = after style q a := by
    rw [after_append, h.after_eq ha]
  refine ⟨render style q a, render style (after style q a) t, render style (after style q a) b,
    length_render _ _ _, length_render _ _ _, length_render _ _ _, ?_, render_append _ _ _ _, ?_,
    h.interior_render ha⟩
  · rw [render_append, render_append, hafter]
  · rw [after_append, hafter, after_append]

/-- A region in the middle of an open parenthesis. It begins with a slash that does not close it,
and has brackets on each of its lines. -/
def slashedRegion : List (List Char) := ["/*/ \x7b", " ) ;", "y */ ("].map String.toList

theorem trivia_is_transparent_slashedRegion :
    ∃ ra rt rb, ra.length = 1 ∧ rt.length = 3 ∧ interior rt = [" ) ;".toList] ∧
      render {} {} (["if (x".toList] ++ slashedRegion ++ ["&& y) \x7b".toList]) = ra ++ rt ++ rb ∧
      render {} {} (["if (x".toList] ++ ["&& y) \x7b".toList]) = ra ++ rb := by
  have h : Trivia slashedRegion :=
    @Trivia.region "/*/ \x7b".toList "y */ (".toList "/ \x7b".toList [" ) ;".toList]
      rfl (by decide) (by decide) (by decide)
  have hopen : (after {} {} ["if (x".toList]).inComment = false := by decide
  obtain ⟨ra, rt, rb, hra, hrt, -, hwith, hwithout, -, hinterior⟩ :=
    trivia_is_transparent h hopen ["&& y) \x7b".toList]
  exact ⟨ra, rt, rb, hra, hrt, hinterior, hwith, hwithout⟩

theorem getLast?_of_line {l s : List Char} (h : (l ++ '\n' :: s).getLast? = some '\n')
    (hs : s ≠ []) : s.getLast? = some '\n' := by
  obtain ⟨c, s, rfl⟩ := List.exists_cons_of_ne_nil hs
  simpa using h

theorem rawLines_append {a b : List Char} (ha : a.getLast? = some '\n') (hb : b ≠ []) :
    (rawLines a).2 = true ∧
      rawLines (a ++ b) = ((rawLines a).1 ++ (rawLines b).1, (rawLines b).2) := by
  induction a using line_induction with
  | last l hl => exact absurd (List.mem_of_getLast? ha) hl
  | line l s hl ih =>
    rw [List.append_assoc, List.cons_append]
    by_cases hs : s = []
    · subst hs
      rw [rawLines_line_nil hl, List.nil_append, rawLines_line hl hb]
      exact ⟨rfl, rfl⟩
    · obtain ⟨hterminated, hlines⟩ := ih (getLast?_of_line ha hs)
      rw [rawLines_line hl hs, rawLines_line hl (by simp [hs]), hlines]
      exact ⟨hterminated, rfl⟩

theorem holds_append {a b : List Char} (ha : a.getLast? = some '\n') :
    holds ['\r', '\n'] (a ++ b) = (holds ['\r', '\n'] a || holds ['\r', '\n'] b) := by
  induction a using line_induction with
  | last l hl => exact absurd (List.mem_of_getLast? ha) hl
  | line l s hl ih =>
    rw [List.append_assoc, List.cons_append, holds_line hl, holds_line hl]
    by_cases hs : s = []
    · subst hs
      simp [holds]
    · rw [ih (getLast?_of_line ha hs), Bool.or_assoc]

theorem intercalate_append_of_ne_nil (eol : List Char) {u v : List (List Char)} (hu : u ≠ [])
    (hv : v ≠ []) :
    eol.intercalate (u ++ v) = eol.intercalate u ++ eol ++ eol.intercalate v := by
  induction u with
  | nil => exact absurd rfl hu
  | cons l u ih =>
    rw [List.cons_append, List.intercalate_cons_of_ne_nil (by simp [hv])]
    cases u with
    | nil => simp
    | cons l' u =>
      rw [ih (List.cons_ne_nil _ _), List.intercalate_cons_of_ne_nil (List.cons_ne_nil _ _)]
      simp only [List.append_assoc]

theorem terminator_append {a b : List Char} (ha : a.getLast? = some '\n')
    (hab : '\n' ∉ b ∨ holds ['\r', '\n'] a = holds ['\r', '\n'] b) :
    terminator (a ++ b) = terminator a := by
  have hholds : holds ['\r', '\n'] (a ++ b) = holds ['\r', '\n'] a := by
    rw [holds_append ha]
    rcases hab with hn | heq
    · rw [holds_of_notMem hn, Bool.or_false]
    · rw [← heq, Bool.or_self]
  rw [terminator, terminator, hholds]

def joined (style : Style) (q : State) (eol text : List Char) : List Char :=
  eol.intercalate (render style q (rawLines text).1) ++ if (rawLines text).2 then eol else []

theorem reindentFrom_eq (style : Style) (q : State) (text : List Char) :
    reindentFrom style q text =
      (joined style q (terminator text) text, after style q (rawLines text).1) := rfl

theorem joined_append (style : Style) (q : State) (eol : List Char) {a b : List Char}
    (ha : a.getLast? = some '\n') (hb : b ≠ []) :
    joined style q eol (a ++ b) =
      joined style q eol a ++ joined style (after style q (rawLines a).1) eol b := by
  obtain ⟨hterminated, hlines⟩ := rawLines_append ha hb
  have hjoin := intercalate_append_of_ne_nil eol (render_rawLines_ne_nil style q a)
    (render_rawLines_ne_nil style (after style q (rawLines a).1) b)
  simp only [joined, hlines, hterminated, if_true, render_append, hjoin, List.append_assoc]

theorem joined_of_notMem (style : Style) (q : State) (eol : List Char) {l : List Char}
    (hl : '\n' ∉ l) : joined style q eol l = (step style q (dropReturn l)).2 := by
  simp [joined, rawLines_of_notMem hl]

/-- A document can be cut behind any of its line feeds and re-indented in two pieces, the second one
from the state after the first. Both pieces must call for the same terminator, unless the second one
has no use for it. -/
theorem reindentFrom_resumes {style : Style} {q : State} {a b : List Char}
    (ha : a.getLast? = some '\n') (hb : b ≠ [])
    (hab : '\n' ∉ b ∨ holds ['\r', '\n'] a = holds ['\r', '\n'] b) {outA outB : List Char}
    {q₁ q₂ : State} (h₁ : reindentFrom style q a = (outA, q₁))
    (h₂ : reindentFrom style q₁ b = (outB, q₂)) :
    reindentFrom style q (a ++ b) = (outA ++ outB, q₂) := by
  rw [reindentFrom_eq] at h₁ h₂
  obtain ⟨rfl, rfl⟩ := Prod.mk.inj h₁
  obtain ⟨rfl, rfl⟩ := Prod.mk.inj h₂
  have hb' : joined style (after style q (rawLines a).1) (terminator a) b =
      joined style (after style q (rawLines a).1) (terminator b) b := by
    rcases hab with hn | heq
    · rw [joined_of_notMem _ _ _ hn, joined_of_notMem _ _ _ hn]
    · rw [terminator, terminator, heq]
  rw [reindentFrom_eq, terminator_append ha hab, joined_append style q _ ha hb, hb',
    (rawLines_append ha hb).2, after_append]

theorem reindentFrom_resumes_inParens :
    reindentFrom {} {} ("f(a,\r\n".toList ++ "b)  \x7b\r\nc".toList) =
      ("f(a,\r\n".toList ++ "    b)  \x7b\r\n    c".toList, { depth := 1 }) := by
  have hfirst : reindentFrom {} {} "f(a,\r\n".toList =
      ("f(a,\r\n".toList, { continuation := 1 }) := by decide
  have hsecond : reindentFrom {} { continuation := 1 } "b)  \x7b\r\nc".toList =
      ("    b)  \x7b\r\n    c".toList, { depth := 1 }) := by decide
  exact reindentFrom_resumes (by decide) (by decide) (.inr (by decide)) hfirst hsecond

end Reflow
end HotkeyScript
