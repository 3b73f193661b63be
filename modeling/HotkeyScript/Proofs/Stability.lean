import HotkeyScript.Proofs.Passes
import HotkeyScript.Proofs.Reflow

/-!
# Formatting twice

A document is settled under a style if every line of it is rendered to itself and ends in the
terminator of the document. Re-indenting gives a settled document and leaves a settled one as it
is; limiting blank runs and collapsing spaces keep a document settled. So a second run of the three
passes finds nothing to do.
-/

namespace HotkeyScript
namespace Reflow

open Text Spacing BlankRun

/-- The segments of a document that re-indenting leaves as they are, from the state `q` on. -/
inductive Settled (style : Style) (crlf : Bool) : State → List (List Char) → Prop
  | nil {q : State} : Settled style crlf q []
  | last {q : State} {l : List Char} (hl : '\n' ∉ l) (hr : l.getLast? ≠ some '\r')
      (h : (step style q l).2 = l) : Settled style crlf q [l]
  | line {q : State} {l : List Char} {ts : List (List Char)} (hl : '\n' ∉ l)
      (hr : crlf = false → l.getLast? ≠ some '\r') (h : (step style q l).2 = l)
      (hts : Settled style crlf (step style q l).1 ts) :
      Settled style crlf q ((l ++ lineEnd crlf) :: ts)

variable {style : Style} {crlf : Bool} {q : State}

theorem Settled.cut {ts : List (List Char)} (h : Settled style crlf q ts) : Cut ts := by
  induction h with
  | nil => exact .nil
  | last hl _ _ => exact .last hl
  | line hl _ _ _ ih =>
    rw [append_lineEnd]
    exact .line (feed_notMem_append_return hl crlf) ih

/-- Segments whose carriage returns are told from terminators: one may stand before the terminator
of a line only if the terminators of the document have one themselves, and the last line may end in
one of them at most. -/
inductive Told (crlf : Bool) : List (List Char) → Prop
  | nil : Told crlf []
  | last {l : List Char} (hl : '\n' ∉ l) (hr : (dropReturn l).getLast? ≠ some '\r') : Told crlf [l]
  | line {l : List Char} {ts : List (List Char)} (hl : '\n' ∉ l)
      (hr : crlf = false → (dropReturn l).getLast? ≠ some '\r') (hts : Told crlf ts) :
      Told crlf ((l ++ ['\n']) :: ts)

theorem told_segments {text : List Char} (hcr : crlf = false → holds ['\r', '\n'] text = false)
    (hend : ¬['\r', '\r'] <:+ text) : Told crlf (segments text) := by
  induction text using line_induction with
  | last l hl =>
    by_cases hne : l = []
    · subst hne
      exact .nil
    · rw [segments_of_notMem hl hne]
      exact .last hl (getLast?_dropReturn hend)
  | line l s hl ih =>
    have hls : crlf = false → l.getLast? ≠ some '\r' ∧ holds ['\r', '\n'] s = false := by
      intro hc
      have h := hcr hc
      rw [holds_line hl] at h
      simpa using h
    rw [segments_line hl]
    refine .line hl ?_ (ih (fun hc => (hls hc).2) fun hs => hend (hs.trans ⟨l ++ ['\n'], by simp⟩))
    intro hc
    rw [dropReturn_of_getLast? (hls hc).1]
    exact (hls hc).1

/-- What re-indenting renders is settled. -/
theorem settled_renderSegments {ts : List (List Char)} (h : Told crlf ts) :
    Settled style crlf q (renderSegments style (lineEnd crlf) q ts) := by
  induction h generalizing q with
  | nil => exact .nil
  | last hl hr =>
    rw [renderSegments_last _ _ _ hl]
    exact .last (feed_notMem_render (feed_notMem_dropReturn hl)) (getLast?_render hr)
      (by rw [step_render])
  | line hl hr _ ih =>
    rw [renderSegments_line]
    refine .line (feed_notMem_render (feed_notMem_dropReturn hl))
      (fun hc => getLast?_render (hr hc)) (by rw [step_render]) ?_
    rw [step_render]
    exact ih

/-- Blank segments can be left out of a settled document: no line after them moves. -/
theorem Settled.of_thinned {ts us : List (List Char)} (h : Settled style crlf q ts)
    (ht : Thinned ts us) : Settled style crlf q us := by
  induction h generalizing us with
  | nil =>
    cases ht
    exact .nil
  | last hl hr h =>
    cases ht with
    | keep ht =>
      cases ht
      exact .last hl hr h
    | drop _ ht =>
      cases ht
      exact .nil
  | @line q l ts hl hr h _ ih =>
    cases ht with
    | keep ht => exact .line hl hr h (ih ht)
    | drop hb ht =>
      have hblank := isBlank_of_isBlankLine hb
      have hq := after_blank style q fun c hc => hblank c (List.mem_append_left _ hc)
      have hus := ih ht
      rwa [hq] at hus

theorem Settled.map_collapseContent {ts : List (List Char)} (h : Settled style crlf q ts) :
    Settled style crlf q (ts.map collapseContent) := by
  induction h with
  | nil => exact .nil
  | @last q l hl hr h =>
    refine .last (by simpa using hl) (by simpa using hr) ?_
    rw [step_collapseContent, h]
  | @line q l ts hl hr h _ ih =>
    rw [List.map_cons, collapseContent_append_of_isBreak l fun c hc => isBreak_of_mem_lineEnd hc]
    refine .line (by simpa using hl) (by simpa using hr) ?_ ?_
    · rw [step_collapseContent, h]
    · rwa [step_collapseContent]

theorem Settled.renderSegments_eq {ts : List (List Char)} (h : Settled style crlf q ts) :
    renderSegments style (lineEnd crlf) q ts = ts := by
  induction h with
  | nil => rfl
  | last hl hr h => rw [renderSegments_last _ _ _ hl, dropReturn_of_getLast? hr, h]
  | line hl hr h _ ih => rw [renderSegments_terminated style _ hr, h, ih]

theorem Settled.holds_eq {ts : List (List Char)} (h : Settled style crlf q ts)
    (hn : '\n' ∈ ts.flatten) : holds ['\r', '\n'] ts.flatten = crlf := by
  induction h with
  | nil => simp at hn
  | last hl _ _ => exact absurd (by simpa using hn) hl
  | @line q l ts hl hr _ _ ih =>
    rw [List.flatten_cons, append_lineEnd, List.append_assoc, List.singleton_append,
      holds_line (feed_notMem_append_return hl crlf)]
    cases hc : crlf with
    | true => simp
    | false =>
      have hrest : holds ['\r', '\n'] ts.flatten = false := by
        by_cases hts : '\n' ∈ ts.flatten
        · rw [ih hts, hc]
        · exact holds_of_notMem hts
      simpa [hrest] using hr hc

theorem settled_reindent {text : List Char} (hend : ¬['\r', '\r'] <:+ text) :
    Settled style (holds ['\r', '\n'] text) {} (segments (reindent style text)) := by
  have h : Settled style (holds ['\r', '\n'] text) {}
      (renderSegments style (lineEnd (holds ['\r', '\n'] text)) {} (segments text)) :=
    settled_renderSegments (told_segments (fun hc => hc) hend)
  rw [reindent_eq_flatten, terminator_eq_lineEnd, h.cut.segments_flatten]
  exact h.of_thinned (thinned_filter _)

theorem Settled.reindent_eq_flatten {text : List Char} (h : Settled style crlf {} (segments text))
    (style' : Style) :
    reindent style' text = (renderSegments style' (lineEnd crlf) {} (segments text)).flatten := by
  rw [Reflow.reindent_eq_flatten, terminator_eq_lineEnd]
  by_cases hn : '\n' ∈ text
  · have hc : holds ['\r', '\n'] text = crlf := by
      have hh := h.holds_eq (by rwa [flatten_segments])
      rwa [flatten_segments] at hh
    rw [hc]
  · by_cases hne : text = []
    · rw [hne]
      rfl
    · rw [segments_of_notMem hn hne, renderSegments_last _ _ _ hn, renderSegments_last _ _ _ hn]

theorem reindent_of_settled {text : List Char} (h : Settled style crlf {} (segments text)) :
    reindent style text = text := by
  rw [h.reindent_eq_flatten, h.renderSegments_eq, flatten_segments]

end Reflow

namespace Document

open Text Reflow BlankRun

theorem settled_layOut {s : Settings} {text : List Char} (hs : s.imposeIndent = true)
    (hend : ¬['\r', '\r'] <:+ text) :
    Settled s.style (holds ['\r', '\n'] text) {} (segments (layOut s text)) := by
  have hlimit : Settled s.style (holds ['\r', '\n'] text) {}
      (segments (limit s.maxBlankLines (indented s text))) := by
    rw [segments_limit, indented, if_pos hs]
    exact (settled_reindent hend).of_thinned (thinned_limitSegments _ _)
  rw [layOut_eq]
  split
  · rw [segments_collapseSpaces]
    exact hlimit.map_collapseContent
  · exact hlimit

theorem limit_layOut (s : Settings) (text : List Char) :
    limit s.maxBlankLines (layOut s text) = layOut s text := by
  rw [layOut_eq]
  split
  · rw [limit_collapseSpaces, limit_limit]
  · rw [limit_limit]

theorem collapseSpaces_layOut {s : Settings} (hs : s.trimExtraSpaces = true) (text : List Char) :
    collapseSpaces (layOut s text) = layOut s text := by
  rw [layOut_eq, if_pos hs, collapseSpaces_collapseSpaces]

/-- Each of the three passes leaves alone what the three of them have made. -/
theorem layOut_layOut (s : Settings) {text : List Char} (hend : ¬['\r', '\r'] <:+ text) :
    layOut s (layOut s text) = layOut s text := by
  have hindent : indented s (layOut s text) = layOut s text := by
    unfold indented
    split
    · next hs => exact reindent_of_settled (settled_layOut hs hend)
    · rfl
  rw [layOut_eq s (layOut s text), hindent, limit_layOut]
  split
  · next hs => exact collapseSpaces_layOut hs text
  · rfl

/-- Formatting is idempotent: within bounds, every text has a formatted form, and formatting that
again gives the same text. -/
theorem format_idempotent {s : Settings} {text : List Char} (hs : s.fault? = none)
    (hend : ¬['\r', '\r'] <:+ text) :
    (∃ out, format s text = .ok out) ∧
      ∀ out, format s text = .ok out → format s out = .ok out := by
  refine ⟨⟨layOut s text, format_eq_ok_iff.mpr ⟨hs, rfl⟩⟩, ?_⟩
  intro out h
  obtain ⟨-, rfl⟩ := format_eq_ok_iff.mp h
  exact format_eq_ok_iff.mpr ⟨hs, layOut_layOut s hend⟩

def looseText : List Char :=
  "if (a  ,\r\n\r\n/*  x\n\n*/ y\n  b) \x7b\nc  \r".toList

theorem format_idempotent_looseText :
    ∃ out, format { maxBlankLines := 0, preserveContinuation := true } looseText = .ok out ∧
      format { maxBlankLines := 0, preserveContinuation := true } out = .ok out := by
  have hs : Settings.fault? { maxBlankLines := 0, preserveContinuation := true } = none := by decide
  have hend : ¬['\r', '\r'] <:+ looseText := by decide +kernel
  obtain ⟨⟨out, hout⟩, hfix⟩ := format_idempotent hs hend
  exact ⟨out, hout, hfix out hout⟩

end Document
end HotkeyScript
