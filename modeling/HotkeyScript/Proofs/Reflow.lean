import HotkeyScript.Proofs.Segments
import HotkeyScript.Proofs.Skeleton

/-!
# One step of the reflow, and a whole document segment by segment

A line is either left as it is or put behind spaces and tabs in place of the blanks in front of it.
In the second case nothing about the step depends on those blanks, so a line that has been rendered
is rendered to itself. A step commutes with collapsing the runs of spaces of its line, and a line of
blanks does not move the state. Re-indenting a document is such a step for each of its segments.
-/

namespace HotkeyScript
namespace Reflow

open Text Line Spacing

/-- The line is left as it is: it is inside a block comment, or it continues an open parenthesis
and the style keeps the blanks of such lines. -/
def isVerbatim (style : Style) (q : State) (raw : List Char) : Bool :=
  if q.inComment then !closesComment raw
  else !opensComment raw && (q.isContinued && (style.keepContinuation && trimStart raw != []))

theorem isIndent_of_mem_indentation {style : Style} {d : UInt64} {c : Char}
    (h : c ∈ style.indentation d) : isIndent c = true := by
  rcases Style.mem_indentation h with rfl | rfl <;> rfl

theorem exists_indent_eq_append (style : Style) (d : UInt64) (s : List Char) :
    ∃ w, (∀ c ∈ w, isIndent c = true) ∧ style.indent d s = w ++ s := by
  by_cases h : s = []
  · exact ⟨[], by simp, by simp [h]⟩
  · refine ⟨style.indentation d, ?_, by simp [Style.indent, h]⟩
    intro c hc
    exact isIndent_of_mem_indentation hc

theorem render_of_isVerbatim {style : Style} {q : State} {raw : List Char}
    (h : isVerbatim style q raw = true) : (step style q raw).2 = raw := by
  unfold isVerbatim at h
  unfold step
  split
  · next hq =>
    have hc : closesComment raw = false := by simpa [hq] using h
    simp [commentStep, hc]
  · next hq =>
    rw [if_neg hq] at h
    simp only [Bool.and_eq_true, Bool.not_eq_true', bne_iff_ne] at h
    obtain ⟨ho, hk, hs, hne⟩ := h
    simp [ho, hk, continuedStep, hs, hne]

theorem exists_render_of_not_isVerbatim {style : Style} {q : State} {raw : List Char}
    (h : isVerbatim style q raw = false) :
    ∃ w, (∀ c ∈ w, isIndent c = true) ∧ (step style q raw).2 = w ++ trimStart raw := by
  unfold isVerbatim at h
  unfold step
  split
  · next hq =>
    have hc : closesComment raw = true := by simpa [hq] using h
    rw [commentStep, if_pos hc]
    exact exists_indent_eq_append style _ _
  · next hq =>
    rw [if_neg hq] at h
    split
    · exact exists_indent_eq_append style _ _
    · next ho =>
      split
      · next hk =>
        unfold continuedStep
        by_cases hs : style.keepContinuation = true
        · have hb : trimStart raw = [] := by simpa [ho, hk, hs] using h
          refine ⟨style.indentation (q.depth + 1), fun c hc => isIndent_of_mem_indentation hc, ?_⟩
          simp [hs, hb]
        · simp only [hs]
          exact exists_indent_eq_append style _ _
      · exact exists_indent_eq_append style _ _

/-- The blanks in front of a line are not looked at unless the line is left as it is. -/
theorem step_congr {style : Style} {q : State} {raw raw' : List Char}
    (h : isVerbatim style q raw = false) (ht : trimStart raw' = trimStart raw) :
    step style q raw' = step style q raw := by
  have hopen : opensComment raw' = opensComment raw := by
    rw [← opensComment_trimStart, ht, opensComment_trimStart]
  have hclose : closesComment raw' = closesComment raw := by
    rw [← closesComment_trimStart, ht, closesComment_trimStart]
  have hscan : scanned raw' = scanned raw := by rw [← scanned_trimStart, ht, scanned_trimStart]
  have hskel : skeleton raw' = skeleton raw := by rw [← skeleton_trimStart, ht, skeleton_trimStart]
  unfold isVerbatim at h
  unfold step
  rw [hopen]
  split
  · next hq =>
    have hc : closesComment raw = true := by simpa [hq] using h
    simp [commentStep, hclose, hc, ht]
  · next hq =>
    rw [if_neg hq] at h
    split
    · rw [openingStep, openingStep, ht]
    · next ho =>
      split
      · next hk =>
        by_cases hs : style.keepContinuation = true
        · have hb : trimStart raw = [] := by simpa [ho, hk, hs] using h
          simp [continuedStep, hscan, ht, hs, hb]
        · simp [continuedStep, hscan, ht, hs]
      · rw [plainStep, plainStep, hskel, ht]

theorem trimStart_render (style : Style) (q : State) (raw : List Char) :
    trimStart (step style q raw).2 = trimStart raw := by
  by_cases h : isVerbatim style q raw = true
  · rw [render_of_isVerbatim h]
  · rw [Bool.not_eq_true] at h
    obtain ⟨w, hw, hr⟩ := exists_render_of_not_isVerbatim h
    have hblank : ∀ c ∈ w, isBlank c = true := fun c hc => isBlank_of_isIndent (hw c hc)
    rw [hr, trimStart_append_of_blank hblank, trimStart_trimStart]

/-- A rendered line is rendered to itself, and moves the state as the line did. -/
@[simp] theorem step_render (style : Style) (q : State) (raw : List Char) :
    step style q (step style q raw).2 = step style q raw := by
  by_cases h : isVerbatim style q raw = true
  · rw [render_of_isVerbatim h]
  · rw [Bool.not_eq_true] at h
    exact step_congr h (trimStart_render style q raw)

theorem feed_notMem_render {style : Style} {q : State} {raw : List Char} (h : '\n' ∉ raw) :
    '\n' ∉ (step style q raw).2 := by
  by_cases hv : isVerbatim style q raw = true
  · rwa [render_of_isVerbatim hv]
  · rw [Bool.not_eq_true] at hv
    obtain ⟨w, hw, hr⟩ := exists_render_of_not_isVerbatim hv
    rw [hr, List.mem_append, not_or]
    exact ⟨fun hc => absurd (hw _ hc) (by decide), fun hc => h (List.dropWhile_subset isBlank hc)⟩

theorem getLast?_render {style : Style} {q : State} {raw : List Char}
    (h : raw.getLast? ≠ some '\r') : (step style q raw).2.getLast? ≠ some '\r' := by
  by_cases hv : isVerbatim style q raw = true
  · rwa [render_of_isVerbatim hv]
  · rw [Bool.not_eq_true] at hv
    obtain ⟨w, hw, hr⟩ := exists_render_of_not_isVerbatim hv
    rw [hr, List.getLast?_append]
    intro hlast
    rcases Option.or_eq_some_iff.mp hlast with hb | ⟨-, hl⟩
    · apply h
      rw [← takeWhile_append_trimStart raw, List.getLast?_append, hb, Option.some_or]
    · exact absurd (hw _ (List.mem_of_getLast? hl)) (by decide)

theorem indent_collapse (style : Style) (d : UInt64) (raw : List Char) :
    style.indent d (trimStart (collapseContent raw)) =
      collapseContent (style.indent d (trimStart raw)) := by
  rw [trimStart_collapseContent]
  by_cases h : trimStart raw = []
  · simp [h]
  · obtain ⟨c, r, hr, hc⟩ := exists_cons_of_trimStart_ne_nil h
    have hhead : ∀ a ∈ (trimStart raw).head?, isIndent a = false := by
      intro a ha
      rw [hr, List.head?_cons, Option.mem_some_iff] at ha
      subst ha
      by_contra hi
      rw [Bool.not_eq_false] at hi
      rw [isBlank_of_isIndent hi] at hc
      exact Bool.noConfusion hc
    have hw : ∀ a ∈ style.indentation d, isIndent a = true := fun a ha =>
      isIndent_of_mem_indentation ha
    rw [Style.indent, if_neg (by simpa using h), Style.indent, if_neg h,
      collapseContent_append_of_indent hw, collapseContent_of_head hhead]

theorem commentStep_collapseContent (style : Style) (q : State) (raw : List Char) :
    commentStep style q (collapseContent raw) =
      ((commentStep style q raw).1, collapseContent (commentStep style q raw).2) := by
  have hholds : holds ['*', '/'] (collapseContent raw) = holds ['*', '/'] raw :=
    holds_collapseContent (by simp) (by simp [isIndent]) raw
  unfold commentStep
  rw [closesComment_collapseContent, hholds]
  split
  · rw [indent_collapse]
  · rfl

theorem openingStep_collapseContent {style : Style} {q : State} {raw : List Char}
    (h : opensComment raw = true) :
    openingStep style q (collapseContent raw) =
      ((openingStep style q raw).1, collapseContent (openingStep style q raw).2) := by
  have hdrop : (trimStart (collapseContent raw)).drop 2 = collapse ((trimStart raw).drop 2) := by
    obtain ⟨r, hr⟩ := List.isPrefixOf_iff_prefix.mp h
    rw [trimStart_collapseContent, ← hr, List.cons_append, collapse_cons_of_ne (by decide),
      List.cons_append, collapse_cons_of_ne (by decide)]
    rfl
  dsimp only [openingStep]
  rw [indent_collapse, hdrop, holds_collapse (by decide)]

theorem continuedStep_collapseContent (style : Style) (q : State) (raw : List Char) :
    continuedStep style q (collapseContent raw) =
      ((continuedStep style q raw).1, collapseContent (continuedStep style q raw).2) := by
  have hb : trimStart (collapseContent raw) = [] ↔ trimStart raw = [] := by
    rw [trimStart_collapseContent, collapse_eq_nil_iff]
  have hw : collapseContent (style.indentation (q.depth + 1)) = style.indentation (q.depth + 1) :=
    collapseContent_eq_self_of_indent fun c hc => isIndent_of_mem_indentation hc
  dsimp only [continuedStep]
  rw [scanned_collapseContent, Bracket.braces_collapse, Bracket.parens_collapse, indent_collapse]
  simp only [hb]
  split
  · split
    · rw [hw]
    · rfl
  · rfl

theorem plainStep_collapseContent (style : Style) (q : State) (raw : List Char) :
    plainStep style q (collapseContent raw) =
      ((plainStep style q raw).1, collapseContent (plainStep style q raw).2) := by
  have hd : openDepth q.depth (collapse (skeleton raw)) = openDepth q.depth (skeleton raw) := by
    rw [openDepth, openDepth, head?_collapse, Bracket.braces_collapse]
  dsimp only [plainStep]
  rw [skeleton_collapseContent, hd, Bracket.parens_collapse, indent_collapse]

theorem step_collapseContent (style : Style) (q : State) (raw : List Char) :
    step style q (collapseContent raw) =
      ((step style q raw).1, collapseContent (step style q raw).2) := by
  unfold step
  rw [opensComment_collapseContent]
  split
  · exact commentStep_collapseContent style q raw
  · split
    · next ho => exact openingStep_collapseContent ho
    · split
      · exact continuedStep_collapseContent style q raw
      · exact plainStep_collapseContent style q raw

theorem run_collapseContent (style : Style) (q : State) (lines : List (List Char)) :
    after style q (lines.map collapseContent) = after style q lines ∧
      render style q (lines.map collapseContent) = (render style q lines).map collapseContent := by
  induction lines generalizing q with
  | nil => exact ⟨rfl, rfl⟩
  | cons raw rest ih =>
    obtain ⟨hafter, hrender⟩ := ih (step style q raw).1
    rw [List.map_cons, after_cons, after_cons, render_cons, render_cons, step_collapseContent]
    exact ⟨hafter, by rw [hrender, List.map_cons]⟩

/-- Collapsing runs of spaces does not change the structure of a line, though it looks neither at
literals nor at escapes: the line is of the same kind, its skeleton and the line as scanned are
collapsed, and a step moves the state as before. So does a whole run, and what it renders is
collapsed line by line. -/
theorem collapse_keeps_structure :
    (∀ l : List Char, kind (collapse l) = kind l ∧ skeleton (collapse l) = collapse (skeleton l) ∧
      scanned (collapse l) = collapse (scanned l)) ∧
    ∀ (style : Style) (q : State),
      (∀ l : List Char, (step style q (collapseContent l)).1 = (step style q l).1) ∧
      ∀ lines : List (List Char),
        after style q (lines.map collapseContent) = after style q lines ∧
          render style q (lines.map collapseContent) =
            (render style q lines).map collapseContent := by
  constructor
  · intro l
    exact ⟨kind_collapse l, skeleton_collapse l, scanned_collapse l⟩
  · intro style q
    refine ⟨fun l => ?_, run_collapseContent style q⟩
    rw [step_collapseContent]

theorem holds_eq_false_of_blank {raw : List Char} (h : ∀ c ∈ raw, isBlank c = true) :
    holds ['*', '/'] raw = false := by
  rw [holds_eq_false_iff]
  intro hin
  have hstar : '*' ∈ raw := hin.subset List.mem_cons_self
  exact absurd (h '*' hstar) (by decide)

theorem after_of_skeleton_nil (style : Style) {q : State} {raw : List Char}
    (hq : q.inComment = false) (hopen : opensComment raw = false) (hscan : scanned raw = [])
    (hskel : skeleton raw = []) : (step style q raw).1 = q := by
  rw [step_of_code hq hopen]
  split
  · simp [continuedStep, hscan, Bracket.braces, Bracket.parens]
  · simp [plainStep, hskel, openDepth, Bracket.braces, Bracket.parens]

/-- A line of blanks leaves the state as it is, wherever it stands. -/
theorem after_blank (style : Style) (q : State) {raw : List Char}
    (h : ∀ c ∈ raw, isBlank c = true) : (step style q raw).1 = q := by
  have ht : trimStart raw = [] := trimStart_eq_nil_iff.mpr h
  have hscan : scanned raw = [] := by
    rw [← scanned_trimStart, ht]
    rfl
  have hskel : skeleton raw = [] := by
    rw [← skeleton_trimStart, ht]
    rfl
  have hopen : opensComment raw = false := by rw [opensComment, ht]; rfl
  have hclose : closesComment raw = false := by rw [closesComment, ht]; rfl
  obtain ⟨depth, continuation, inComment⟩ := q
  cases inComment with
  | true => simp [step, commentStep, hclose, holds_eq_false_of_blank h]
  | false => exact after_of_skeleton_nil style rfl hopen hscan hskel

/-- Re-indent segment by segment. A segment without a line feed gets no terminator. -/
def renderSegments (style : Style) (eol : List Char) :
    State → List (List Char) → List (List Char)
  | _, [] => []
  | q, t :: ts =>
    match dropLast? '\n' t with
    | some l =>
      let (q', rendered) := step style q (dropReturn l)
      (rendered ++ eol) :: renderSegments style eol q' ts
    | none =>
      let (q', rendered) := step style q (dropReturn t)
      rendered :: renderSegments style eol q' ts

theorem dropLast?_of_notMem {l : List Char} (hl : '\n' ∉ l) : dropLast? '\n' l = none := by
  rw [dropLast?, if_neg]
  intro h
  exact hl (List.mem_of_getLast? h)

@[simp] theorem renderSegments_nil (style : Style) (eol : List Char) (q : State) :
    renderSegments style eol q [] = [] := rfl

theorem renderSegments_line (style : Style) (eol : List Char) (q : State) (l : List Char)
    (ts : List (List Char)) :
    renderSegments style eol q ((l ++ ['\n']) :: ts) =
      ((step style q (dropReturn l)).2 ++ eol) ::
        renderSegments style eol (step style q (dropReturn l)).1 ts := by
  have h : dropLast? '\n' (l ++ ['\n']) = some l := by simp [dropLast?]
  rw [renderSegments, h]

theorem renderSegments_last (style : Style) (eol : List Char) (q : State) {l : List Char}
    (hl : '\n' ∉ l) :
    renderSegments style eol q [l] = [(step style q (dropReturn l)).2] := by
  rw [renderSegments, dropLast?_of_notMem hl]
  rfl

def lineEnd (crlf : Bool) : List Char := if crlf then ['\r', '\n'] else ['\n']

theorem terminator_eq_lineEnd (text : List Char) :
    terminator text = lineEnd (holds ['\r', '\n'] text) := rfl

theorem isBreak_of_mem_lineEnd {crlf : Bool} {c : Char} (h : c ∈ lineEnd crlf) :
    isBreak c = true := by
  cases crlf with
  | false => rw [List.mem_singleton.mp h, isBreak_feed]
  | true =>
    rcases List.mem_pair.mp h with rfl | rfl
    · exact isBreak_return
    · exact isBreak_feed

theorem append_lineEnd (crlf : Bool) (l : List Char) :
    l ++ lineEnd crlf = (l ++ if crlf then ['\r'] else []) ++ ['\n'] := by
  cases crlf <;> simp [lineEnd]

theorem feed_notMem_append_return {l : List Char} (hl : '\n' ∉ l) (crlf : Bool) :
    '\n' ∉ l ++ if crlf then ['\r'] else [] := by
  cases crlf <;> simp [hl]

/-- A line that ends in the terminator of the document, and in no carriage return that could be
taken for a part of it. -/
theorem renderSegments_terminated (style : Style) {crlf : Bool} (q : State) {l : List Char}
    (hr : crlf = false → l.getLast? ≠ some '\r') (ts : List (List Char)) :
    renderSegments style (lineEnd crlf) q ((l ++ lineEnd crlf) :: ts) =
      ((step style q l).2 ++ lineEnd crlf) ::
        renderSegments style (lineEnd crlf) (step style q l).1 ts := by
  have hdrop : dropReturn (l ++ if crlf then ['\r'] else []) = l := by
    cases hc : crlf with
    | false => simpa using dropReturn_of_getLast? (hr hc)
    | true => simp
  rw [append_lineEnd, renderSegments_line, hdrop, append_lineEnd]

theorem cut_renderSegments (style : Style) (crlf : Bool) (q : State) {ts : List (List Char)}
    (h : Cut ts) : Cut (renderSegments style (lineEnd crlf) q ts) := by
  induction h generalizing q with
  | nil => exact .nil
  | last hl =>
    rw [renderSegments_last _ _ _ hl]
    exact .last (feed_notMem_render (feed_notMem_dropReturn hl))
  | @line l ts hl _ ih =>
    have hrender : '\n' ∉ (step style q (dropReturn l)).2 :=
      feed_notMem_render (feed_notMem_dropReturn hl)
    rw [renderSegments_line, append_lineEnd]
    exact .line (feed_notMem_append_return hrender crlf) (ih _)

theorem rawLines_of_notMem {l : List Char} (hl : '\n' ∉ l) :
    rawLines l = ([dropReturn l], false) := by
  simp [rawLines, List.splitOn_eq_singleton hl]

theorem rawLines_line_nil {l : List Char} (hl : '\n' ∉ l) :
    rawLines (l ++ ['\n']) = ([dropReturn l], true) := by
  have hsplit : (l ++ ['\n']).splitOn '\n' = [l, []] := by
    rw [List.splitOn_append_cons_self_of_not_mem hl, List.splitOn_nil]
  simp [rawLines, hsplit]

theorem rawLines_line {l s : List Char} (hl : '\n' ∉ l) (hs : s ≠ []) :
    rawLines (l ++ '\n' :: s) = (dropReturn l :: (rawLines s).1, (rawLines s).2) := by
  have hsplit : (l ++ '\n' :: s).splitOn '\n' = l :: s.splitOn '\n' :=
    List.splitOn_append_cons_self_of_not_mem hl s
  obtain ⟨p, ps, hp⟩ := List.exists_cons_of_ne_nil (List.splitOn_ne_nil '\n' s)
  have hone : ps = [] → p ≠ [] := by
    rintro rfl rfl
    have h : ['\n'].intercalate (s.splitOn '\n') = s := List.intercalate_splitOn '\n'
    rw [hp, List.intercalate_singleton] at h
    exact hs h.symm
  dsimp only [rawLines]
  rw [hsplit, hp]
  cases ps with
  | nil => simp [hone rfl]
  | cons p' ps =>
    simp only [List.length_cons, List.getLast?_cons_cons]
    split <;> rename_i h
    · rw [if_pos ⟨by omega, h.2⟩]
      rfl
    · rw [if_neg fun h' => h ⟨by omega, h'.2⟩]
      rfl

theorem rawLines_ne_nil (text : List Char) : (rawLines text).1 ≠ [] := by
  induction text using line_induction with
  | last l hl => simp [rawLines_of_notMem hl]
  | line l s hl _ =>
    by_cases hs : s = []
    · simp [hs, rawLines_line_nil hl]
    · simp [rawLines_line hl hs]

theorem render_rawLines_ne_nil (style : Style) (q : State) (text : List Char) :
    render style q (rawLines text).1 ≠ [] := by
  rw [← List.length_pos_iff, length_render, List.length_pos_iff]
  exact rawLines_ne_nil text

theorem flatten_renderSegments (style : Style) (eol : List Char) (q : State) {text : List Char}
    (h : text ≠ []) :
    (renderSegments style eol q (segments text)).flatten =
      eol.intercalate (render style q (rawLines text).1) ++
        if (rawLines text).2 then eol else [] := by
  induction text using line_induction generalizing q with
  | last l hl =>
    rw [segments_of_notMem hl h, renderSegments_last style eol q hl, rawLines_of_notMem hl]
    simp
  | line l s hl ih =>
    rw [segments_line hl, renderSegments_line]
    by_cases hs : s = []
    · subst hs
      rw [rawLines_line_nil hl]
      simp
    · rw [rawLines_line hl hs, List.flatten_cons, ih _ hs, render_cons,
        List.intercalate_cons_of_ne_nil (render_rawLines_ne_nil style _ s)]
      simp

/-- Re-indenting a document is re-indenting its segments. -/
theorem reindent_eq_flatten (style : Style) (text : List Char) :
    reindent style text =
      (renderSegments style (terminator text) {} (segments text)).flatten := by
  by_cases h : text = []
  · subst h
    rfl
  · rw [flatten_renderSegments style _ _ h]
    rfl

end Reflow
end HotkeyScript
