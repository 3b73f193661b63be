import HotkeyScript.Proofs.Passes
import HotkeyScript.Proofs.Reflow

/-!
# Formatting keeps the code

The code of a text is the list of its lines that are not blank, without the blanks in front of them
and the carriage returns behind them. Re-indenting and limiting blank runs keep this list as it is,
and collapsing spaces collapses its members, so no formatting adds, loses or reorders code.
-/

namespace HotkeyScript
namespace Document

open Text Reflow BlankRun Spacing

/-- The lines of a text that are not blank, without leading blanks and trailing carriage returns. -/
def codeLines (text : List Char) : List (List Char) :=
  (((text.splitOn '\n').map (dropEndWhile (· == '\r'))).filter (!·.all isBlank)).map trimStart

def codeOf (t : List Char) : List Char := dropEndWhile isBreak (trimStart t)

theorem isBlank_of_isBreak {c : Char} (h : isBreak c = true) : isBlank c = true := by
  simp only [isBreak, Bool.or_eq_true, beq_iff_eq] at h
  rcases h with rfl | rfl <;> decide

theorem codeOf_append_of_isBreak (t : List Char) {e : List Char} (he : ∀ c ∈ e, isBreak c = true) :
    codeOf (t ++ e) = codeOf t := by
  unfold codeOf
  by_cases h : trimStart t = []
  · have hte : trimStart (t ++ e) = [] := by
      rw [trimStart_eq_nil_iff] at h ⊢
      intro c hc
      rcases List.mem_append.mp hc with hc | hc
      · exact h c hc
      · exact isBlank_of_isBreak (he c hc)
    rw [h, hte]
  · rw [trimStart_append_of_ne_nil h, dropEndWhile_append _ he]

theorem codeOf_dropReturn (l : List Char) : codeOf (dropReturn l) = codeOf l := by
  unfold dropReturn
  split
  · next hr =>
    obtain ⟨a, rfl⟩ := List.getLast?_eq_some_iff.mp hr
    rw [List.dropLast_concat, codeOf_append_of_isBreak a (by simp)]
  · rfl

theorem codeOf_render (style : Style) (q : State) (raw : List Char) :
    codeOf (step style q raw).2 = codeOf raw := by
  rw [codeOf, codeOf, trimStart_render]

theorem codeOf_collapseContent (t : List Char) :
    codeOf (collapseContent t) = collapse (codeOf t) := by
  rw [codeOf, trimStart_collapseContent, dropEndWhile_collapse, codeOf]

theorem codeOf_eq_nil_iff {t : List Char} : codeOf t = [] ↔ ∀ c ∈ t, isBlank c = true := by
  rw [← trimStart_eq_nil_iff]
  constructor
  · intro h
    by_contra hne
    obtain ⟨c, r, hr, hc⟩ := exists_cons_of_trimStart_ne_nil hne
    have hall := List.rdropWhile_eq_nil_iff.mp h
    have hb := hall c (hr ▸ List.mem_cons_self)
    rw [isBlank_of_isBreak hb] at hc
    exact Bool.noConfusion hc
  · intro h
    rw [codeOf, h]
    rfl

/-- In a line, the carriage returns at its end go before the blanks at its front or after them. -/
theorem trimStart_dropEndWhile_return {l : List Char} (hl : '\n' ∉ l) :
    trimStart (dropEndWhile (· == '\r') l) = codeOf l := by
  obtain ⟨e, hs, he⟩ := exists_dropEndWhile_append (· == '\r') l
  have hbreak : ∀ c ∈ e, isBreak c = true := fun c hc => by
    have hr : c = '\r' := by simpa using he c hc
    rw [hr]
    decide
  have hend : ∀ c ∈ (trimStart (dropEndWhile (· == '\r') l)).getLast?, isBreak c = false := by
    intro c hc
    have hmem : c ∈ (dropEndWhile (· == '\r') l).getLast? := by
      rw [← takeWhile_append_trimStart (dropEndWhile _ l), List.getLast?_append,
        Option.mem_def.mp hc]
      rfl
    have hret := not_of_mem_getLast?_dropEndWhile hmem
    have hfeed : c ≠ '\n' := by
      rintro rfl
      apply hl
      rw [hs]
      exact List.mem_append_left _ (List.mem_of_getLast? hmem)
    simpa [isBreak, hfeed] using hret
  calc trimStart (dropEndWhile (· == '\r') l) = codeOf (dropEndWhile (· == '\r') l) :=
        (dropEndWhile_eq_self hend).symm
    _ = codeOf l := by
        nth_rewrite 2 [hs]
        exact (codeOf_append_of_isBreak _ hbreak).symm

theorem all_isBlank_dropEndWhile_return {l : List Char} (hl : '\n' ∉ l) :
    (dropEndWhile (· == '\r') l).all isBlank = (codeOf l).isEmpty := by
  rw [Bool.eq_iff_iff, List.all_eq_true, List.isEmpty_iff, ← trimStart_dropEndWhile_return hl,
    trimStart_eq_nil_iff]

theorem codeLines_eq_filter (text : List Char) :
    codeLines text = ((segments text).map codeOf).filter (!·.isEmpty) := by
  unfold codeLines
  induction text using line_induction with
  | last l hl =>
    have hcode := trimStart_dropEndWhile_return hl
    have hblank := all_isBlank_dropEndWhile_return hl
    rw [List.splitOn_eq_singleton hl]
    by_cases hne : l = []
    · subst hne
      rfl
    · rw [segments_of_notMem hl hne]
      by_cases hc : codeOf l = []
      · simp [hblank, hc]
      · simp [hblank, hcode, hc]
  | line l s hl ih =>
    have hcode := trimStart_dropEndWhile_return hl
    have hblank := all_isBlank_dropEndWhile_return hl
    have hfeed : codeOf (l ++ ['\n']) = codeOf l := codeOf_append_of_isBreak l (by simp)
    rw [List.splitOn_append_cons_self_of_not_mem hl, segments_line hl, List.map_cons, List.map_cons,
      hfeed]
    by_cases hc : codeOf l = []
    · simp [hblank, hc, ih]
    · simp [hblank, hcode, hc, ih]

theorem filter_codeOf_of_thinned {ts us : List (List Char)} (h : Thinned ts us) :
    (us.map codeOf).filter (!·.isEmpty) = (ts.map codeOf).filter (!·.isEmpty) := by
  induction h with
  | nil => rfl
  | @keep t ts us _ ih =>
    rw [List.map_cons, List.map_cons, List.filter_cons, List.filter_cons, ih]
  | @drop t ts us ht _ ih =>
    have hc : codeOf t = [] := codeOf_eq_nil_iff.mpr (isBlank_of_isBlankLine ht)
    rw [List.map_cons, hc, List.filter_cons_of_neg (by simp), ih]

theorem codeLines_flatten {ts : List (List Char)} (h : Cut ts) :
    codeLines ts.flatten = (ts.map codeOf).filter (!·.isEmpty) := by
  rw [codeLines_eq_filter, h.segments_flatten]
  exact filter_codeOf_of_thinned (thinned_filter ts)

theorem map_codeOf_renderSegments (style : Style) (crlf : Bool) (q : State)
    {ts : List (List Char)} (h : Cut ts) :
    (renderSegments style (lineEnd crlf) q ts).map codeOf = ts.map codeOf := by
  induction h generalizing q with
  | nil => rfl
  | @last l hl =>
    have hlast : codeOf (step style q (dropReturn l)).2 = codeOf l :=
      (codeOf_render style q _).trans (codeOf_dropReturn l)
    rw [renderSegments_last _ _ _ hl, List.map_singleton, List.map_singleton, hlast]
  | @line l ts hl _ ih =>
    have hend : ∀ c ∈ lineEnd crlf, isBreak c = true := fun c hc => isBreak_of_mem_lineEnd hc
    have hline : codeOf ((step style q (dropReturn l)).2 ++ lineEnd crlf) =
        codeOf (l ++ ['\n']) := by
      calc codeOf ((step style q (dropReturn l)).2 ++ lineEnd crlf)
          = codeOf (step style q (dropReturn l)).2 := codeOf_append_of_isBreak _ hend
        _ = codeOf (dropReturn l) := codeOf_render style q _
        _ = codeOf l := codeOf_dropReturn l
        _ = codeOf (l ++ ['\n']) := (codeOf_append_of_isBreak l (by simp)).symm
    rw [renderSegments_line, List.map_cons, List.map_cons, hline, ih]

theorem codeLines_reindent (style : Style) (text : List Char) :
    codeLines (reindent style text) = codeLines text := by
  have hcut := cut_segments text
  have hrendered := cut_renderSegments style (holds ['\r', '\n'] text) {} hcut
  have hcode := map_codeOf_renderSegments style (holds ['\r', '\n'] text) {} hcut
  rw [reindent_eq_flatten, terminator_eq_lineEnd, codeLines_flatten hrendered, hcode,
    codeLines_eq_filter]

theorem codeLines_limit (n : Int32) (text : List Char) :
    codeLines (limit n text) = codeLines text := by
  rw [codeLines_eq_filter, segments_limit, filter_codeOf_of_thinned (thinned_limitSegments n _),
    codeLines_eq_filter]

theorem codeLines_collapseSpaces (text : List Char) :
    codeLines (collapseSpaces text) = (codeLines text).map collapse := by
  have hcode : ((segments text).map collapseContent).map codeOf =
      ((segments text).map codeOf).map collapse := by
    rw [List.map_map, List.map_map]
    exact List.map_congr_left fun t _ => codeOf_collapseContent t
  rw [codeLines_eq_filter, segments_collapseSpaces, hcode, List.filter_map, codeLines_eq_filter]
  congr 1
  refine List.filter_congr fun l _ => ?_
  rw [Function.comp_apply, Bool.eq_iff_iff]
  simp

theorem codeLines_indented (s : Settings) (text : List Char) :
    codeLines (indented s text) = codeLines text := by
  unfold indented
  split
  · exact codeLines_reindent s.style text
  · rfl

theorem codeLines_layOut_of_not_trim {s : Settings} (hs : s.trimExtraSpaces = false)
    (text : List Char) : codeLines (layOut s text) = codeLines text := by
  rw [layOut_eq, if_neg (by simp [hs]), codeLines_limit, codeLines_indented]

theorem codeLines_layOut_of_trim {s : Settings} (hs : s.trimExtraSpaces = true)
    (text : List Char) : codeLines (layOut s text) = (codeLines text).map collapse := by
  rw [layOut_eq, if_pos hs, codeLines_collapseSpaces, codeLines_limit, codeLines_indented]

/-- Formatting neither loses nor adds nor reorders code. Up to runs of spaces the code of a text is
that of its formatted form, and to the letter if spaces are not collapsed. -/
theorem format_keeps_code {s : Settings} (hs : s.fault? = none) (text : List Char) :
    ∃ out, format s text = .ok out ∧
      (codeLines out).map collapse = (codeLines text).map collapse ∧
      (s.trimExtraSpaces = false → codeLines out = codeLines text) := by
  refine ⟨layOut s text, format_eq_ok_iff.mpr ⟨hs, rfl⟩, ?_, fun ht => ?_⟩
  · cases ht : s.trimExtraSpaces with
    | false => rw [codeLines_layOut_of_not_trim ht]
    | true =>
      rw [codeLines_layOut_of_trim ht, List.map_map]
      exact List.map_congr_left fun l _ => collapse_collapse l
  · exact codeLines_layOut_of_not_trim ht text

def mixedBlanks : List Char := "\u00a0 x  := 1\r\r\n\u00a0\r\n\t\n\r\n\x7d  y ".toList

theorem format_keeps_code_mixedBlanks :
    ∃ out, format { maxBlankLines := 0, trimExtraSpaces := false } mixedBlanks = .ok out ∧
      codeLines out = ["x  := 1".toList, "\x7d  y ".toList] := by
  have hs : Settings.fault? { maxBlankLines := 0, trimExtraSpaces := false } = none := by decide
  obtain ⟨out, hout, -, hcode⟩ := format_keeps_code hs mixedBlanks
  refine ⟨out, hout, ?_⟩
  rw [hcode rfl]
  decide +kernel

end Document
end HotkeyScript
