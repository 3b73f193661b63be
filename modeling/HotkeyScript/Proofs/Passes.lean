import HotkeyScript.Proofs.Segments

/-!
# Limiting blank runs and collapsing spaces

Both passes work on the segments of a text one by one. Collapsing leaves blank segments as they
are, so the two passes can be done in either order; each of them has nothing left to do after it
has run once.
-/

namespace HotkeyScript
namespace BlankRun

open Text Spacing

/-- Two limits one after the other act as the smaller of them. The second pass has seen the blank
segments of the present run that the first one kept. -/
theorem keep_keep (m n : Nat) (seen : Bool) (run : Nat) (ts : List (List Char)) :
    keep n seen (min run m) (keep m seen run ts) = keep (min m n) seen run ts := by
  induction ts generalizing seen run with
  | nil => simp [keep]
  | cons t ts ih =>
    by_cases ht : isBlankLine t = true
    · cases seen with
      | false =>
        simp only [keep, ht, if_true, Bool.false_eq_true, if_false]
        exact ih false run
      | true =>
        by_cases hm : run + 1 ≤ m
        · have hmin : min run m + 1 = min (run + 1) m := by omega
          have hboth : run + 1 ≤ min m n ↔ min run m + 1 ≤ n := by omega
          have h := ih true (run + 1)
          simp only [keep, ht, hm, if_true, hboth]
          rw [hmin, h]
        · have hmin : min run m = min (run + 1) m := by omega
          have hboth : ¬run + 1 ≤ min m n := by omega
          simp only [keep, ht, hm, hboth, if_true, if_false]
          rw [hmin]
          exact ih true (run + 1)
    · rw [Bool.not_eq_true] at ht
      have h := ih true 0
      rw [Nat.zero_min] at h
      simp only [keep, ht, Bool.false_eq_true, if_false]
      rw [h]

/-- Which segments stay depends on nothing but which of them are blank. -/
theorem keep_map {f : List Char → List Char} (hf : ∀ t, isBlankLine (f t) = isBlankLine t)
    (n : Nat) (seen : Bool) (run : Nat) (ts : List (List Char)) :
    keep n seen run (ts.map f) = (keep n seen run ts).map f := by
  induction ts generalizing seen run with
  | nil => simp [keep]
  | cons t ts ih =>
    simp only [List.map_cons, keep, hf, ih]
    split
    · split
      · split <;> simp
      · rfl
    · simp

def limitSegments (n : Int32) (ts : List (List Char)) : List (List Char) :=
  if n < 0 then ts else keep n.toInt.toNat false 0 ts

theorem thinned_limitSegments (n : Int32) (ts : List (List Char)) :
    Thinned ts (limitSegments n ts) := by
  unfold limitSegments
  split
  · induction ts with
    | nil => exact .nil
    | cons t ts ih => exact .keep ih
  · exact thinned_keep _ _ _ _

theorem limitSegments_limitSegments (n : Int32) (ts : List (List Char)) :
    limitSegments n (limitSegments n ts) = limitSegments n ts := by
  unfold limitSegments
  split
  · rfl
  · have h := keep_keep n.toInt.toNat n.toInt.toNat false 0 ts
    rwa [Nat.zero_min, Nat.min_self] at h

theorem segments_limit (n : Int32) (text : List Char) :
    segments (limit n text) = limitSegments n (segments text) := by
  unfold limit limitSegments
  split
  · rfl
  · exact segments_flatten_of_sublist (keep_sublist _ _ _ _)

theorem limit_limit (n : Int32) (text : List Char) : limit n (limit n text) = limit n text := by
  apply eq_of_segments_eq
  rw [segments_limit, segments_limit, limitSegments_limitSegments]

theorem isBlankLine_collapseContent (t : List Char) :
    isBlankLine (collapseContent t) = isBlankLine t := by
  obtain ⟨e, ht, he⟩ := exists_dropEndWhile_append isBreak t
  have hlast : ∀ c ∈ (collapseContent (dropEndWhile isBreak t)).getLast?, isBreak c = false := by
    intro c hc
    rw [getLast?_collapseContent] at hc
    exact not_of_mem_getLast?_dropEndWhile hc
  have hcontent : dropEndWhile isBreak (collapseContent t) =
      collapseContent (dropEndWhile isBreak t) := by
    nth_rewrite 1 [ht]
    rw [collapseContent_append_of_isBreak _ he, dropEndWhile_append _ he,
      dropEndWhile_eq_self hlast]
  rw [isBlankLine, isBlankLine, hcontent, Bool.eq_iff_iff, List.all_eq_true, List.all_eq_true]
  simp only [mem_collapseContent]

theorem limitSegments_map_collapseContent (n : Int32) (ts : List (List Char)) :
    limitSegments n (ts.map collapseContent) = (limitSegments n ts).map collapseContent := by
  unfold limitSegments
  split
  · rfl
  · exact keep_map isBlankLine_collapseContent _ _ _ _

end BlankRun

namespace Document

open Text Spacing

theorem collapseSegment_eq (t : List Char) : collapseSegment t = collapseContent t := by
  obtain ⟨e, ht, he⟩ := exists_dropEndWhile_append isBreak t
  have hdrop : t.drop (dropEndWhile isBreak t).length = e := by
    nth_rewrite 2 [ht]
    exact List.drop_left
  dsimp only [collapseSegment]
  rw [hdrop, ← collapseContent_append_of_isBreak _ he, ← ht]

theorem cut_map_collapseContent {ts : List (List Char)} (h : Cut ts) :
    Cut (ts.map collapseContent) := by
  induction h with
  | nil => exact .nil
  | @last l hl => exact .last (by simpa using hl)
  | @line l ts hl _ ih =>
    rw [List.map_cons, collapseContent_append_of_isBreak l (by simp)]
    exact .line (by simpa using hl) ih

theorem segments_collapseSpaces (text : List Char) :
    segments (collapseSpaces text) = (segments text).map collapseContent := by
  have hmap : collapseSpaces text = ((segments text).map collapseContent).flatten := by
    rw [collapseSpaces, List.flatMap_def, funext collapseSegment_eq]
  rw [hmap, (cut_map_collapseContent (cut_segments text)).segments_flatten, List.filter_eq_self]
  intro t ht
  obtain ⟨u, hu, rfl⟩ := List.mem_map.mp ht
  simpa using ne_nil_of_mem_segments hu

theorem collapseSpaces_collapseSpaces (text : List Char) :
    collapseSpaces (collapseSpaces text) = collapseSpaces text := by
  apply eq_of_segments_eq
  rw [segments_collapseSpaces, segments_collapseSpaces, List.map_map]
  exact List.map_congr_left fun t _ => collapseContent_collapseContent t

theorem limit_collapseSpaces (n : Int32) (text : List Char) :
    BlankRun.limit n (collapseSpaces text) = collapseSpaces (BlankRun.limit n text) := by
  apply eq_of_segments_eq
  rw [BlankRun.segments_limit, segments_collapseSpaces, segments_collapseSpaces,
    BlankRun.segments_limit, BlankRun.limitSegments_map_collapseContent]

def indented (s : Settings) (text : List Char) : List Char :=
  if s.imposeIndent then Reflow.reindent s.style text else text

theorem layOut_eq (s : Settings) (text : List Char) :
    layOut s text =
      if s.trimExtraSpaces then collapseSpaces (BlankRun.limit s.maxBlankLines (indented s text))
      else BlankRun.limit s.maxBlankLines (indented s text) := rfl

end Document
end HotkeyScript
