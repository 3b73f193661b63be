import HotkeyScript.Proofs.Stability

/-!
# Formatting under another style

Two styles that keep no blanks of continued lines read a document in the same way and differ in the
spaces and tabs in front of its lines alone. So re-indenting a document that is settled under one of
them, for the other, commutes with limiting its blank runs and with collapsing its spaces, and a
document that was formatted under one style is formatted under the other as if it never had been.
-/

namespace HotkeyScript
namespace BlankRun

open Text Spacing

theorem isBlankLine_append_of_isBreak (t : List Char) {e : List Char}
    (he : ∀ c ∈ e, isBreak c = true) : isBlankLine (t ++ e) = isBlankLine t := by
  rw [isBlankLine, isBlankLine, dropEndWhile_append t he]

theorem isBlankLine_append_of_indent {w : List Char} (hw : ∀ c ∈ w, isIndent c = true)
    (t : List Char) : isBlankLine (w ++ t) = isBlankLine t := by
  have hlast : ∀ c ∈ w.getLast?, isBreak c = false := by
    intro c hc
    have hi := hw c (List.mem_of_getLast? hc)
    by_contra hb
    rw [isIndent_eq_false_of_isBreak (by simpa using hb)] at hi
    exact Bool.noConfusion hi
  have hall : (w.all fun c => c == ' ' || c == '\t') = true := List.all_eq_true.mpr hw
  rw [isBlankLine, dropEndWhile_append_of_last hlast, List.all_append, hall, Bool.true_and,
    isBlankLine]

theorem limitSegments_limitSegments_of_le {m n : Int32} (h : m = -1 ∨ 0 ≤ n ∧ n ≤ m)
    (ts : List (List Char)) : limitSegments n (limitSegments m ts) = limitSegments n ts := by
  rcases h with rfl | ⟨hn, hnm⟩
  · rfl
  · have hn' : 0 ≤ n.toInt := Int32.le_iff_toInt_le.mp hn
    have hnm' : n.toInt ≤ m.toInt := Int32.le_iff_toInt_le.mp hnm
    have hmin : min m.toInt.toNat n.toInt.toNat = n.toInt.toNat := by omega
    have hnot : ∀ k : Int32, 0 ≤ k.toInt → ¬k < 0 := by
      intro k hk hlt
      have hlt' : k.toInt < 0 := Int32.lt_iff_toInt_lt.mp hlt
      omega
    have hkeep := keep_keep m.toInt.toNat n.toInt.toNat false 0 ts
    rw [Nat.zero_min, hmin] at hkeep
    simpa only [limitSegments, hnot n hn', hnot m (hn'.trans hnm'), if_false] using hkeep

theorem limit_limit_of_le {m n : Int32} (h : m = -1 ∨ 0 ≤ n ∧ n ≤ m) (text : List Char) :
    limit n (limit m text) = limit n text := by
  apply eq_of_segments_eq
  rw [segments_limit, segments_limit, segments_limit, limitSegments_limitSegments_of_le h]

end BlankRun

namespace Reflow

open Text Line Spacing BlankRun

/-- One text behind two indentations. An empty text has none. -/
inductive Alike : List Char → List Char → Prop
  | same (l : List Char) : Alike l l
  | moved {w w' l : List Char} (hw : ∀ c ∈ w, isIndent c = true) (hw' : ∀ c ∈ w', isIndent c = true)
      (hl : l ≠ []) : Alike (w ++ l) (w' ++ l)

theorem Alike.eq_nil_iff {l l' : List Char} (h : Alike l l') : l = [] ↔ l' = [] := by
  cases h with
  | same => rfl
  | moved hw hw' hl => simp [hl]

theorem Alike.isBlankLine_eq {l l' : List Char} (h : Alike l l') :
    isBlankLine l = isBlankLine l' := by
  cases h with
  | same => rfl
  | moved hw hw' hl => rw [isBlankLine_append_of_indent hw, isBlankLine_append_of_indent hw']

theorem alike_indent (s t : Style) (d : UInt64) (l : List Char) :
    Alike (s.indent d l) (t.indent d l) := by
  by_cases hl : l = []
  · rw [hl, Style.indent_nil, Style.indent_nil]
    exact .same []
  · rw [Style.indent, if_neg hl, Style.indent, if_neg hl]
    exact .moved (fun c hc => isIndent_of_mem_indentation hc)
      (fun c hc => isIndent_of_mem_indentation hc) hl

theorem after_congr (s t : Style) (q : State) (raw : List Char) :
    (step s q raw).1 = (step t q raw).1 := by
  unfold step
  split
  · unfold commentStep
    split <;> rfl
  · split
    · rfl
    · split <;> rfl

section TwoStyles

variable {s t : Style} (hs : s.keepContinuation = false) (ht : t.keepContinuation = false)
  {crlf : Bool} {q : State}

include hs ht

theorem alike_render (q : State) (raw : List Char) :
    Alike (step s q raw).2 (step t q raw).2 := by
  unfold step
  split
  · unfold commentStep
    split
    · exact alike_indent s t _ _
    · exact .same raw
  · split
    · exact alike_indent s t _ _
    · split
      · simp only [continuedStep, hs, ht]
        exact alike_indent s t _ _
      · exact alike_indent s t _ _

/-- A line that was rendered under one style is rendered under the other as the line itself is. -/
theorem step_render_of_style (q : State) (raw : List Char) :
    step t q (step s q raw).2 = step t q raw := by
  have hsame : isVerbatim t q raw = isVerbatim s q raw := by simp [isVerbatim, hs, ht]
  cases hv : isVerbatim s q raw with
  | true => rw [render_of_isVerbatim hv]
  | false => exact step_congr (hsame.trans hv) (trimStart_render s q raw)

theorem renderSegments_renderSegments {ts : List (List Char)} (h : Told crlf ts) :
    renderSegments t (lineEnd crlf) q (renderSegments s (lineEnd crlf) q ts) =
      renderSegments t (lineEnd crlf) q ts := by
  induction h generalizing q with
  | nil => rfl
  | @last l hl hr =>
    have hn : '\n' ∉ (step s q (dropReturn l)).2 := feed_notMem_render (feed_notMem_dropReturn hl)
    rw [renderSegments_last _ _ _ hl, renderSegments_last _ _ _ hn,
      dropReturn_of_getLast? (getLast?_render hr), step_render_of_style hs ht,
      renderSegments_last _ _ _ hl]
  | @line l ts hl hr _ ih =>
    rw [renderSegments_line, renderSegments_terminated t q fun hc => getLast?_render (hr hc),
      step_render_of_style hs ht, after_congr s t q, ih, renderSegments_line]

/-- Only the last segment of a document can be empty, and it is so under both styles or none. -/
theorem Settled.renderSegments_filter {ts : List (List Char)} (h : Settled s crlf q ts) :
    renderSegments t (lineEnd crlf) q (ts.filter (!·.isEmpty)) =
      (renderSegments t (lineEnd crlf) q ts).filter (!·.isEmpty) := by
  induction h with
  | nil => rfl
  | @last q l hl hr h =>
    have hempty : (step t q l).2 = [] ↔ l = [] := by
      rw [← (alike_render hs ht q l).eq_nil_iff, h]
    rw [renderSegments_last _ _ _ hl, dropReturn_of_getLast? hr]
    by_cases hne : l = []
    · rw [hempty.mpr hne, hne]
      rfl
    · have hrender : (step t q l).2 ≠ [] := mt hempty.mp hne
      simp [hne, hrender, renderSegments_last _ _ _ hl, dropReturn_of_getLast? hr]
  | @line q l ts hl hr h _ ih =>
    have hend : ∀ x : List Char, (!(x ++ lineEnd crlf).isEmpty) = true := by
      intro x
      cases crlf <;> simp [lineEnd]
    rw [after_congr s t q l] at ih
    simp only [List.filter_cons, hend, if_true, renderSegments_terminated t q hr, ih]

/-- The same segments are blank under both styles, so the same ones stay. -/
theorem Settled.keep_renderSegments {ts : List (List Char)} (h : Settled s crlf q ts) (n : Nat)
    (seen : Bool) (run : Nat) :
    keep n seen run (renderSegments t (lineEnd crlf) q ts) =
      renderSegments t (lineEnd crlf) q (keep n seen run ts) := by
  induction h generalizing seen run with
  | nil => rfl
  | @last q l hl hr h =>
    have hblank : isBlankLine (step t q l).2 = isBlankLine l := by
      rw [← (alike_render hs ht q l).isBlankLine_eq, h]
    have hlast : renderSegments t (lineEnd crlf) q [l] = [(step t q l).2] := by
      rw [renderSegments_last _ _ _ hl, dropReturn_of_getLast? hr]
    rw [hlast]
    simp only [keep, hblank]
    split
    · split
      · split
        · rw [hlast]
        · rfl
      · rfl
    · rw [hlast]
  | @line q l ts hl hr h _ ih =>
    have hbreak : ∀ c ∈ lineEnd crlf, isBreak c = true := fun c hc => isBreak_of_mem_lineEnd hc
    have hblank : isBlankLine ((step t q l).2 ++ lineEnd crlf) =
        isBlankLine (l ++ lineEnd crlf) := by
      rw [isBlankLine_append_of_isBreak _ hbreak, isBlankLine_append_of_isBreak _ hbreak,
        ← (alike_render hs ht q l).isBlankLine_eq, h]
    rw [after_congr s t q l] at ih
    have hstay : isBlankLine (l ++ lineEnd crlf) = true → (step t q l).1 = q := by
      intro hb
      have hall := isBlank_of_isBlankLine hb
      exact after_blank t q fun c hc => hall c (List.mem_append_left _ hc)
    rw [renderSegments_terminated t q hr]
    simp only [keep, hblank, ih]
    split
    · next hb =>
      rw [hstay hb]
      split
      · split
        · rw [renderSegments_terminated t q hr, hstay hb]
        · rfl
      · rfl
    · rw [renderSegments_terminated t q hr]

theorem Settled.limitSegments_renderSegments {ts : List (List Char)} (h : Settled s crlf q ts)
    (n : Int32) :
    limitSegments n (renderSegments t (lineEnd crlf) q ts) =
      renderSegments t (lineEnd crlf) q (limitSegments n ts) := by
  unfold limitSegments
  split
  · rfl
  · exact h.keep_renderSegments hs ht _ _ _

omit hs ht in
theorem Settled.renderSegments_map_collapseContent {ts : List (List Char)}
    (h : Settled s crlf q ts) (t : Style) :
    renderSegments t (lineEnd crlf) q (ts.map collapseContent) =
      (renderSegments t (lineEnd crlf) q ts).map collapseContent := by
  induction h with
  | nil => rfl
  | @last q l hl hr _ =>
    have hl' : '\n' ∉ collapseContent l := by simpa using hl
    have hr' : (collapseContent l).getLast? ≠ some '\r' := by simpa using hr
    rw [List.map_cons, List.map_nil, renderSegments_last _ _ _ hl', dropReturn_of_getLast? hr',
      step_collapseContent, renderSegments_last _ _ _ hl, dropReturn_of_getLast? hr,
      List.map_cons, List.map_nil]
  | @line q l ts hl hr _ _ ih =>
    have hbreak : ∀ c ∈ lineEnd crlf, isBreak c = true := fun c hc => isBreak_of_mem_lineEnd hc
    have hr' : crlf = false → (collapseContent l).getLast? ≠ some '\r' := by simpa using hr
    rw [after_congr s t q l] at ih
    rw [List.map_cons, collapseContent_append_of_isBreak l hbreak,
      renderSegments_terminated t q hr', step_collapseContent, renderSegments_terminated t q hr,
      List.map_cons, collapseContent_append_of_isBreak _ hbreak, ih]

section Texts

variable {text : List Char} (h : Settled s crlf {} (segments text))

include h

theorem Settled.segments_reindent :
    segments (reindent t text) = renderSegments t (lineEnd crlf) {} (segments text) := by
  have hcut : Cut (renderSegments t (lineEnd crlf) {} (segments text)) :=
    cut_renderSegments t crlf {} (cut_segments text)
  have hfull : (segments text).filter (!·.isEmpty) = segments text := by
    rw [List.filter_eq_self]
    intro u hu
    simpa using ne_nil_of_mem_segments hu
  rw [h.reindent_eq_flatten, hcut.segments_flatten, ← h.renderSegments_filter hs ht, hfull]

theorem Settled.reindent_limit (n : Int32) :
    reindent t (limit n text) = limit n (reindent t text) := by
  have hlimit : Settled s crlf {} (segments (limit n text)) := by
    rw [segments_limit]
    exact h.of_thinned (thinned_limitSegments n _)
  apply eq_of_segments_eq
  rw [hlimit.segments_reindent hs ht, segments_limit, segments_limit, h.segments_reindent hs ht,
    h.limitSegments_renderSegments hs ht]

theorem Settled.reindent_collapseSpaces :
    reindent t (Document.collapseSpaces text) = Document.collapseSpaces (reindent t text) := by
  have hcollapse : Settled s crlf {} (segments (Document.collapseSpaces text)) := by
    rw [Document.segments_collapseSpaces]
    exact h.map_collapseContent
  apply eq_of_segments_eq
  rw [hcollapse.segments_reindent hs ht, Document.segments_collapseSpaces,
    Document.segments_collapseSpaces, h.segments_reindent hs ht,
    h.renderSegments_map_collapseContent]

end Texts

theorem reindent_reindent {text : List Char} (hend : ¬['\r', '\r'] <:+ text) :
    reindent t (reindent s text) = reindent t text := by
  have htold : Told (holds ['\r', '\n'] text) (segments text) := told_segments (fun hc => hc) hend
  have hraw : Settled s (holds ['\r', '\n'] text) {}
      (renderSegments s (lineEnd (holds ['\r', '\n'] text)) {} (segments text)) :=
    settled_renderSegments htold
  have htext : Settled s (holds ['\r', '\n'] text) {} (segments (reindent s text)) :=
    settled_reindent hend
  have hsegments : segments (reindent s text) =
      (renderSegments s (lineEnd (holds ['\r', '\n'] text)) {} (segments text)).filter
        (!·.isEmpty) := by
    rw [reindent_eq_flatten, terminator_eq_lineEnd, hraw.cut.segments_flatten]
  rw [htext.reindent_eq_flatten, hsegments, hraw.renderSegments_filter hs ht,
    renderSegments_renderSegments hs ht htold, List.flatten_filter_not_isEmpty,
    reindent_eq_flatten, terminator_eq_lineEnd]

end TwoStyles

end Reflow

namespace Document

open Text Reflow BlankRun

section Restyle

variable {s t : Settings} {text : List Char} (hend : ¬['\r', '\r'] <:+ text)
  (hsi : s.imposeIndent = true) (hti : t.imposeIndent = true)
  (hsk : s.preserveContinuation = false) (htk : t.preserveContinuation = false)

include hend hsi hti hsk htk

/-- Re-indenting what was laid out under other settings is re-indenting the text itself, with the
limit and the spacing of those settings kept. -/
theorem indented_layOut :
    indented t (layOut s text) =
      if s.trimExtraSpaces then collapseSpaces (limit s.maxBlankLines (indented t text))
      else limit s.maxBlankLines (indented t text) := by
  have hs : s.style.keepContinuation = false := hsk
  have ht : t.style.keepContinuation = false := htk
  have hsettled : Settled s.style (holds ['\r', '\n'] text) {} (segments (indented s text)) := by
    rw [indented, if_pos hsi]
    exact settled_reindent hend
  have hlimit : Settled s.style (holds ['\r', '\n'] text) {}
      (segments (limit s.maxBlankLines (indented s text))) := by
    rw [segments_limit]
    exact hsettled.of_thinned (thinned_limitSegments _ _)
  have htwice : reindent t.style (indented s text) = reindent t.style text := by
    rw [indented, if_pos hsi]
    exact reindent_reindent hs ht hend
  have hindented : ∀ x, indented t x = reindent t.style x := fun x => by rw [indented, if_pos hti]
  rw [layOut_eq, hindented, hindented]
  split
  · rw [hlimit.reindent_collapseSpaces hs ht, hsettled.reindent_limit hs ht, htwice]
  · rw [hsettled.reindent_limit hs ht, htwice]

/-- The second settings do the work of the first ones again, if they collapse spaces where those do
and allow no longer runs of blank lines. -/
theorem layOut_layOut_of_style (htrim : s.trimExtraSpaces = true → t.trimExtraSpaces = true)
    (hlimit : s.maxBlankLines = -1 ∨ 0 ≤ t.maxBlankLines ∧ t.maxBlankLines ≤ s.maxBlankLines) :
    layOut t (layOut s text) = layOut t text := by
  rw [layOut_eq t (layOut s text), indented_layOut hend hsi hti hsk htk, layOut_eq t text]
  by_cases hcollapse : s.trimExtraSpaces = true
  · simp only [hcollapse, htrim hcollapse, if_true]
    rw [limit_collapseSpaces, limit_limit_of_le hlimit, collapseSpaces_collapseSpaces]
  · simp only [hcollapse, Bool.false_eq_true, if_false]
    rw [limit_limit_of_le hlimit]

end Restyle

/-- Formatting under another style loses nothing: a document that was formatted under settings whose
work is done again comes out as if it had been formatted once. -/
theorem format_after_other_style {s t : Settings} {text : List Char} (hs : s.fault? = none)
    (ht : t.fault? = none) (hend : ¬['\r', '\r'] <:+ text)
    (hsi : s.imposeIndent = true) (hti : t.imposeIndent = true)
    (hsk : s.preserveContinuation = false) (htk : t.preserveContinuation = false)
    (htrim : s.trimExtraSpaces = true → t.trimExtraSpaces = true)
    (hlimit : s.maxBlankLines = -1 ∨ 0 ≤ t.maxBlankLines ∧ t.maxBlankLines ≤ s.maxBlankLines) :
    ∃ between out, format s text = .ok between ∧ format t between = .ok out ∧
      format t text = .ok out := by
  refine ⟨layOut s text, layOut t text, format_eq_ok_iff.mpr ⟨hs, rfl⟩, ?_,
    format_eq_ok_iff.mpr ⟨ht, rfl⟩⟩
  have htwice := layOut_layOut_of_style hend hsi hti hsk htk htrim hlimit
  exact format_eq_ok_iff.mpr ⟨ht, htwice⟩

def looseCall : List Char := "f(a  ,\r\n\n\n\n/*  x\n \n\n\n  y */\n\t b) \x7b\n\tc  \r".toList

def tabbedCall : List Char :=
  "f(a  ,\r\n\r\n\r\n\t/*  x\r\n \r\n\r\n  y */\r\n\tb) \x7b\r\n\tc  ".toList

theorem format_after_other_style_tabbedCall :
    ∃ out, format { tabWidth := 2 } tabbedCall = .ok out ∧
      format { tabWidth := 2 } looseCall = .ok out := by
  have hend : ¬['\r', '\r'] <:+ looseCall := by decide +kernel
  have htabbed : format { useSpaces := false, maxBlankLines := 2, trimExtraSpaces := false }
      looseCall = .ok tabbedCall := by decide +kernel
  obtain ⟨between, out, hbetween, hafter, honce⟩ := format_after_other_style
    (s := { useSpaces := false, maxBlankLines := 2, trimExtraSpaces := false })
    (t := { tabWidth := 2 }) (by decide) (by decide) hend rfl rfl rfl rfl (by decide)
    (.inr (by decide))
  rw [htabbed] at hbetween
  cases hbetween
  exact ⟨out, hafter, honce⟩

end Document
end HotkeyScript
