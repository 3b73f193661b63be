import HotkeyScript.Proofs.Runs

/-!
# What re-indenting leaves alone

Re-indenting a document rewrites the blanks in front of its lines and the terminators behind them.
Line by line, what stands between the two is kept, and a line inside a block comment is kept with
its blanks. The terminators of the new document are all alike: they have a carriage return if one
terminator of the old document had one, and otherwise no line feed follows a carriage return.
-/

namespace HotkeyScript
namespace Reflow

open Text Line

/-- The lines of a document without their line feeds and without one carriage return before each of
them. A document that ends in a line feed has an empty line behind it. -/
def bareLines (text : List Char) : List (List Char) := (text.splitOn '\n').map dropReturn

def emptyEnd (terminated : Bool) : List (List Char) := if terminated then [[]] else []

theorem eq_nil_of_mem_emptyEnd {terminated : Bool} {l : List Char} (h : l ∈ emptyEnd terminated) :
    l = [] := by
  cases terminated with
  | false => exact absurd h List.not_mem_nil
  | true => exact List.mem_singleton.mp h

def renderedLines (style : Style) (q : State) (text : List Char) : List (List Char) :=
  render style q (rawLines text).1 ++ emptyEnd (rawLines text).2

theorem bareLines_eq (text : List Char) :
    bareLines text = (rawLines text).1 ++ emptyEnd (rawLines text).2 := by
  dsimp only [rawLines]
  split
  · next h =>
    have hlast : text.splitOn '\n' = (text.splitOn '\n').dropLast ++ [[]] :=
      (List.dropLast_append_getLast? _ h.2).symm
    rw [bareLines]
    nth_rewrite 1 [hlast]
    simp [dropReturn, emptyEnd]
  · simp [bareLines, emptyEnd]

theorem length_bareLines (text : List Char) :
    (bareLines text).length = (text.splitOn '\n').length := by
  simp [bareLines]

theorem length_renderedLines (style : Style) (q : State) (text : List Char) :
    (renderedLines style q text).length = (bareLines text).length := by
  simp [renderedLines, bareLines_eq]

theorem reindentFrom_eq_intercalate (style : Style) (q : State) (text : List Char) :
    (reindentFrom style q text).1 = (terminator text).intercalate (renderedLines style q text) := by
  rw [reindentFrom_eq, joined, renderedLines]
  split
  · have hne := render_rawLines_ne_nil style q text
    rw [emptyEnd, if_pos ‹_›, intercalate_append_of_ne_nil _ hne (by simp)]
    simp
  · simp [emptyEnd, *]

theorem getElem_render (style : Style) (q : State) (ls : List (List Char)) (i : Nat)
    (h : i < (render style q ls).length) (h' : i < ls.length) :
    (render style q ls)[i] = (step style (after style q (ls.take i)) ls[i]).2 := by
  induction ls generalizing q i with
  | nil => exact absurd h' (Nat.not_lt_zero i)
  | cons l ls ih =>
    cases i with
    | zero => rfl
    | succ i =>
      simpa using ih (step style q l).1 i (by simpa using h') (by simpa using h')

/-- A line of a re-indented document comes from a step, from the state that the lines before it lead
to, or is the empty one at the end. -/
theorem getElem_renderedLines {style : Style} {q : State} {text : List Char} {i : Nat}
    (h : i < (renderedLines style q text).length) (h' : i < (bareLines text).length) :
    (renderedLines style q text)[i] =
        (step style (after style q ((bareLines text).take i)) (bareLines text)[i]).2 ∨
      (renderedLines style q text)[i] = [] ∧ (bareLines text)[i] = [] := by
  by_cases hi : i < (rawLines text).1.length
  · left
    have hr : i < (render style q (rawLines text).1).length := by rwa [length_render]
    simp only [renderedLines, bareLines_eq]
    rw [List.getElem_append_left hr, List.getElem_append_left hi,
      List.take_append_of_le_length hi.le, getElem_render]
  · right
    have hr : (render style q (rawLines text).1).length ≤ i := by
      rw [length_render]
      exact Nat.le_of_not_lt hi
    simp only [renderedLines, bareLines_eq]
    rw [List.getElem_append_right hr, List.getElem_append_right (Nat.le_of_not_lt hi)]
    exact ⟨eq_nil_of_mem_emptyEnd (List.getElem_mem _), eq_nil_of_mem_emptyEnd (List.getElem_mem _)⟩

section Line

variable {style : Style} {q : State} {text : List Char} {i : Nat}
  (h : i < (renderedLines style q text).length) (h' : i < (bareLines text).length)

include h'

theorem trimStart_getElem_renderedLines :
    trimStart (renderedLines style q text)[i] = trimStart (bareLines text)[i] := by
  rcases getElem_renderedLines h h' with hstep | ⟨hnil, hnil'⟩
  · rw [hstep, trimStart_render]
  · rw [hnil, hnil']

/-- Inside a block comment a line is kept as it is, unless the comment ends in front of it. -/
theorem getElem_renderedLines_of_inComment
    (hq : (after style q ((bareLines text).take i)).inComment = true)
    (hclose : closesComment (bareLines text)[i] = false) :
    (renderedLines style q text)[i] = (bareLines text)[i] := by
  rcases getElem_renderedLines h h' with hstep | ⟨hnil, hnil'⟩
  · have hverbatim : isVerbatim style (after style q ((bareLines text).take i))
        (bareLines text)[i] = true := by
      simp [isVerbatim, hq, hclose]
    rw [hstep, render_of_isVerbatim hverbatim]
  · rw [hnil, hnil']

theorem feed_notMem_getElem_renderedLines (hfeed : '\n' ∉ (bareLines text)[i]) :
    '\n' ∉ (renderedLines style q text)[i] := by
  rcases getElem_renderedLines h h' with hstep | ⟨hnil, -⟩
  · rw [hstep]
    exact feed_notMem_render hfeed
  · rw [hnil]
    exact List.not_mem_nil

theorem getLast?_getElem_renderedLines (hreturn : (bareLines text)[i].getLast? ≠ some '\r') :
    (renderedLines style q text)[i].getLast? ≠ some '\r' := by
  rcases getElem_renderedLines h h' with hstep | ⟨hnil, -⟩
  · rw [hstep]
    exact getLast?_render hreturn
  · rw [hnil]
    simp

end Line

theorem getLast?_of_mem_dropLast {text l : List Char} (h : holds ['\r', '\n'] text = false)
    (hl : l ∈ (text.splitOn '\n').dropLast) : l.getLast? ≠ some '\r' := by
  induction text using line_induction with
  | last s hs => simp [List.splitOn_eq_singleton hs] at hl
  | line s rest hs ih =>
    rw [holds_line hs, Bool.or_eq_false_iff, beq_eq_false_iff_ne] at h
    rw [List.splitOn_append_cons_self_of_not_mem hs,
      List.dropLast_cons_of_ne_nil (List.splitOn_ne_nil _ _), List.mem_cons] at hl
    rcases hl with rfl | hl
    · exact h.1
    · exact ih h.2 hl

theorem intercalate_lineEnd (crlf : Bool) (l l' : List Char) (ls : List (List Char)) :
    (lineEnd crlf).intercalate (l :: l' :: ls) =
      (l ++ if crlf then ['\r'] else []) ++ '\n' :: (lineEnd crlf).intercalate (l' :: ls) := by
  rw [List.intercalate_cons_of_ne_nil (List.cons_ne_nil _ _), append_lineEnd, List.append_assoc,
    List.singleton_append]

theorem eq_or_exists_of_feed {u s a b : List Char} (hu : '\n' ∉ u)
    (h : u ++ '\n' :: s = a ++ '\n' :: b) :
    a = u ∨ ∃ a', a = u ++ '\n' :: a' ∧ s = a' ++ '\n' :: b := by
  rcases List.append_eq_append_iff.mp h with ⟨between, ha, hs⟩ | ⟨between, ha, hb⟩
  · cases between with
    | nil => exact .inl (by rw [ha, List.append_nil])
    | cons c a' =>
      rw [List.cons_append, List.cons.injEq] at hs
      exact .inr ⟨a', by rw [ha, ← hs.1], hs.2⟩
  · cases between with
    | nil => exact .inl (by rw [ha, List.append_nil])
    | cons c rest =>
      rw [List.cons_append, List.cons.injEq] at hb
      exact absurd (by simp [ha, ← hb.1]) hu

theorem feed_notMem_of_mem_bareLines {text l : List Char} (h : l ∈ bareLines text) : '\n' ∉ l := by
  obtain ⟨piece, hpiece, rfl⟩ := List.mem_map.mp h
  exact feed_notMem_dropReturn (notMem_of_mem_splitOn hpiece)

theorem getLast?_of_mem_dropLast_bareLines {text l : List Char}
    (h : holds ['\r', '\n'] text = false) (hl : l ∈ (bareLines text).dropLast) :
    l.getLast? ≠ some '\r' := by
  rw [bareLines, ← List.map_dropLast, List.mem_map] at hl
  obtain ⟨piece, hpiece, rfl⟩ := hl
  have hlast := getLast?_of_mem_dropLast h hpiece
  rwa [dropReturn_of_getLast? hlast]

section Join

variable {crlf : Bool} {ls : List (List Char)} (hfeed : ∀ l ∈ ls, '\n' ∉ l)

include hfeed

theorem length_splitOn_intercalate (hne : ls ≠ []) :
    (((lineEnd crlf).intercalate ls).splitOn '\n').length = ls.length := by
  induction ls with
  | nil => exact absurd rfl hne
  | cons l ls ih =>
    have hl : '\n' ∉ l := hfeed l List.mem_cons_self
    cases ls with
    | nil => simp [List.splitOn_eq_singleton hl]
    | cons l' ls =>
      have hrest := ih (fun k hk => hfeed k (List.mem_cons_of_mem l hk)) (List.cons_ne_nil _ _)
      rw [intercalate_lineEnd, List.splitOn_append_cons_self_of_not_mem
        (feed_notMem_append_return hl crlf), List.length_cons, hrest]
      rfl

/-- Before every line feed of a joined text stands a carriage return, or before none of them. -/
theorem return_before_feed_iff
    (hreturn : crlf = false → ∀ l ∈ ls.dropLast, l.getLast? ≠ some '\r') {a b : List Char}
    (hab : (lineEnd crlf).intercalate ls = a ++ '\n' :: b) :
    a.getLast? = some '\r' ↔ crlf = true := by
  induction ls generalizing a with
  | nil => simp at hab
  | cons l ls ih =>
    have hl : '\n' ∉ l := hfeed l List.mem_cons_self
    cases ls with
    | nil =>
      rw [List.intercalate_singleton] at hab
      exact absurd (by simp [hab]) hl
    | cons l' ls =>
      rw [intercalate_lineEnd] at hab
      rcases eq_or_exists_of_feed (feed_notMem_append_return hl crlf) hab with rfl | ⟨a', rfl, hs⟩
      · cases crlf with
        | true => simp
        | false => simpa using hreturn rfl l (by simp)
      · have hrest := ih (fun k hk => hfeed k (List.mem_cons_of_mem l hk))
          (fun hc k hk => hreturn hc k (by simp [hk])) hs
        refine Iff.trans ?_ hrest
        cases a' with
        | nil => simp
        | cons c a' => simp

end Join

/-- Re-indenting rewrites the blanks in front of lines and the terminators behind them, and nothing
else. The document that comes out has as many lines as the one that goes in, each of them the same
after its blanks, and the same altogether if it is inside a block comment and does not begin with
its end. All line feeds come after carriage returns if one of them did so before, and none does
otherwise. -/
theorem reindentFrom_keeps_lines (style : Style) (q : State) (text : List Char) :
    ∃ ls : List (List Char),
      (reindentFrom style q text).1 = (terminator text).intercalate ls ∧
      (∀ l ∈ ls, '\n' ∉ l) ∧ ls.length = (bareLines text).length ∧
      ((reindentFrom style q text).1.splitOn '\n').length = (text.splitOn '\n').length ∧
      (∀ (i : Nat) (h : i < ls.length) (h' : i < (bareLines text).length),
        trimStart ls[i] = trimStart (bareLines text)[i] ∧
        ((after style q ((bareLines text).take i)).inComment = true →
          closesComment (bareLines text)[i] = false → ls[i] = (bareLines text)[i])) ∧
      ∀ a b : List Char, (reindentFrom style q text).1 = a ++ '\n' :: b →
        (a.getLast? = some '\r' ↔ holds ['\r', '\n'] text = true) := by
  have hlength := length_renderedLines style q text
  have hne : renderedLines style q text ≠ [] := by
    rw [← List.length_pos_iff, hlength, length_bareLines, List.length_pos_iff]
    exact List.splitOn_ne_nil _ _
  have hfeed : ∀ l ∈ renderedLines style q text, '\n' ∉ l := by
    intro l hl
    obtain ⟨i, h, rfl⟩ := List.mem_iff_getElem.mp hl
    have h' : i < (bareLines text).length := hlength ▸ h
    have hbare := feed_notMem_of_mem_bareLines (List.getElem_mem h')
    exact feed_notMem_getElem_renderedLines h h' hbare
  have hreturn : holds ['\r', '\n'] text = false →
      ∀ l ∈ (renderedLines style q text).dropLast, l.getLast? ≠ some '\r' := by
    intro hcrlf l hl
    obtain ⟨i, h, rfl⟩ := List.mem_iff_getElem.mp hl
    have h' : i < (bareLines text).dropLast.length := by simpa [hlength] using h
    have hlast := getLast?_of_mem_dropLast_bareLines hcrlf (List.getElem_mem h')
    rw [List.getElem_dropLast] at hlast ⊢
    exact getLast?_getElem_renderedLines _ _ hlast
  have hout := reindentFrom_eq_intercalate style q text
  refine ⟨renderedLines style q text, hout, hfeed, hlength, ?_, ?_, ?_⟩
  · rw [hout, terminator_eq_lineEnd, length_splitOn_intercalate hfeed hne, hlength,
      length_bareLines]
  · intro i h h'
    exact ⟨trimStart_getElem_renderedLines h h', getElem_renderedLines_of_inComment h h'⟩
  · intro a b hab
    rw [hout, terminator_eq_lineEnd] at hab
    exact return_before_feed_iff hfeed hreturn hab

end Reflow
end HotkeyScript
