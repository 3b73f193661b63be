import HotkeyScript.Document
import HotkeyScript.Proofs.Blanks

/-!
# Texts as lists of segments

A text is a line without a line feed, or such a line, a line feed and a text. Each pass over a
document is followed segment by segment: pieces of a text that end in their line feed, all but the
last, can be put together and cut apart again without loss, empty ones aside.
-/

namespace HotkeyScript
namespace Text

@[elab_as_elim]
theorem line_induction {P : List Char → Prop} (last : ∀ l, '\n' ∉ l → P l)
    (line : ∀ l s, '\n' ∉ l → P s → P (l ++ '\n' :: s)) (s : List Char) : P s := by
  by_cases h : '\n' ∈ s
  · obtain ⟨l, r, hs, hl⟩ := List.eq_append_cons_of_mem h
    have : r.length < s.length := by simp [hs]; omega
    rw [hs]
    exact line l r hl (line_induction last line r)
  · exact last s h
termination_by s.length

theorem segments_of_notMem {l : List Char} (hl : '\n' ∉ l) (hne : l ≠ []) : segments l = [l] := by
  induction l with
  | nil => exact absurd rfl hne
  | cons c l ih =>
    rw [List.mem_cons, not_or] at hl
    rw [segments, if_neg (Ne.symm hl.1)]
    by_cases h : l = []
    · rw [h, segments_nil]
    · rw [ih hl.2 h]

theorem segments_line {l : List Char} (hl : '\n' ∉ l) (s : List Char) :
    segments (l ++ '\n' :: s) = (l ++ ['\n']) :: segments s := by
  induction l with
  | nil => rw [List.nil_append, segments, if_pos rfl, List.nil_append]
  | cons c l ih =>
    rw [List.mem_cons, not_or] at hl
    rw [List.cons_append, segments, if_neg (Ne.symm hl.1), ih hl.2, List.cons_append]

/-- Pieces of a text in order: each one but the last ends in its only line feed. -/
inductive Cut : List (List Char) → Prop
  | nil : Cut []
  | last {l : List Char} (hl : '\n' ∉ l) : Cut [l]
  | line {l : List Char} {ts : List (List Char)} (hl : '\n' ∉ l) (hts : Cut ts) :
      Cut ((l ++ ['\n']) :: ts)

theorem cut_segments (s : List Char) : Cut (segments s) := by
  induction s using line_induction with
  | last l hl =>
    by_cases h : l = []
    · rw [h]
      exact .nil
    · rw [segments_of_notMem hl h]
      exact .last hl
  | line l s hl ih =>
    rw [segments_line hl]
    exact .line hl ih

theorem Cut.of_sublist {ts us : List (List Char)} (h : Cut ts) (hs : us.Sublist ts) : Cut us := by
  induction h generalizing us with
  | nil =>
    rw [List.sublist_nil.mp hs]
    exact .nil
  | @last l hl =>
    rcases List.sublist_singleton.mp hs with rfl | rfl
    · exact .nil
    · exact .last hl
  | @line l ts hl _ ih =>
    cases hs with
    | cons _ hs => exact ih hs
    | cons_cons _ hs => exact .line hl (ih hs)

/-- Pieces that are put together and cut apart again come back, but for an empty one. -/
theorem Cut.segments_flatten {ts : List (List Char)} (h : Cut ts) :
    segments ts.flatten = ts.filter (!·.isEmpty) := by
  induction h with
  | nil => rfl
  | @last l hl =>
    by_cases h : l = []
    · simp [h]
    · simp [segments_of_notMem hl h, h]
  | @line l ts hl _ ih =>
    rw [List.flatten_cons, List.append_assoc, List.singleton_append, segments_line hl, ih,
      List.filter_cons_of_pos (by simp)]

theorem eq_of_segments_eq {s t : List Char} (h : segments s = segments t) : s = t := by
  have hflat := congrArg List.flatten h
  rwa [flatten_segments, flatten_segments] at hflat

theorem ne_nil_of_mem_segments {s t : List Char} (h : t ∈ segments s) : t ≠ [] := by
  induction s using line_induction with
  | last l hl =>
    by_cases hne : l = []
    · simp [hne] at h
    · rw [segments_of_notMem hl hne, List.mem_singleton] at h
      exact h ▸ hne
  | line l s hl ih =>
    rw [segments_line hl, List.mem_cons] at h
    rcases h with rfl | h
    · simp
    · exact ih h

theorem segments_flatten_of_sublist {s : List Char} {ts : List (List Char)}
    (h : ts.Sublist (segments s)) : segments ts.flatten = ts := by
  rw [((cut_segments s).of_sublist h).segments_flatten, List.filter_eq_self]
  intro t ht
  simpa using ne_nil_of_mem_segments (h.subset ht)

theorem holds_line {l : List Char} (hl : '\n' ∉ l) (s : List Char) :
    holds ['\r', '\n'] (l ++ '\n' :: s) =
      (l.getLast? == some '\r' || holds ['\r', '\n'] s) := by
  induction l with
  | nil => simp [holds]
  | cons c l ih =>
    rw [List.mem_cons, not_or] at hl
    rw [List.cons_append, holds, ih hl.2]
    cases l with
    | nil => simp [List.isPrefixOf, Bool.beq_eq_decide_eq, eq_comm]
    | cons d l =>
      have hd : ('\n' == d) = false := by
        rw [beq_eq_false_iff_ne]
        rintro rfl
        exact hl.2 List.mem_cons_self
      simp [List.isPrefixOf, hd]

theorem holds_of_notMem {l : List Char} (hl : '\n' ∉ l) : holds ['\r', '\n'] l = false := by
  rw [holds_eq_false_iff]
  intro h
  exact hl (h.subset (by simp))

theorem dropReturn_of_getLast? {l : List Char} (h : l.getLast? ≠ some '\r') : dropReturn l = l :=
  if_neg h

@[simp] theorem dropReturn_append_return (l : List Char) : dropReturn (l ++ ['\r']) = l := by
  simp [dropReturn]

theorem feed_notMem_dropReturn {l : List Char} (hl : '\n' ∉ l) : '\n' ∉ dropReturn l := by
  unfold dropReturn
  split
  · exact fun h => hl (List.dropLast_subset l h)
  · exact hl

theorem getLast?_dropReturn {l : List Char} (h : ¬['\r', '\r'] <:+ l) :
    (dropReturn l).getLast? ≠ some '\r' := by
  unfold dropReturn
  split
  · next hr =>
    intro hd
    obtain ⟨a, ha⟩ := List.getLast?_eq_some_iff.mp hr
    obtain ⟨b, hb⟩ := List.getLast?_eq_some_iff.mp hd
    apply h
    refine ⟨b, ?_⟩
    rw [ha, List.dropLast_concat] at hb
    rw [ha, hb]
    simp
  · next hr => exact hr

end Text

namespace BlankRun

open Text

inductive Thinned : List (List Char) → List (List Char) → Prop
  | nil : Thinned [] []
  | keep {t : List Char} {ts us : List (List Char)} (h : Thinned ts us) :
      Thinned (t :: ts) (t :: us)
  | drop {t : List Char} {ts us : List (List Char)} (ht : isBlankLine t = true)
      (h : Thinned ts us) : Thinned (t :: ts) us

theorem thinned_keep (n : Nat) (seen : Bool) (run : Nat) (ts : List (List Char)) :
    Thinned ts (keep n seen run ts) := by
  fun_induction keep n seen run ts with
  | case1 => exact .nil
  | case2 run t ts ht hrun ih => exact .keep ih
  | case3 run t ts ht hrun ih => exact .drop ht ih
  | case4 seen run t ts ht hseen ih => exact .drop ht ih
  | case5 seen run t ts ht ih => exact .keep ih

theorem thinned_filter (ts : List (List Char)) : Thinned ts (ts.filter (!·.isEmpty)) := by
  induction ts with
  | nil => exact .nil
  | cons t ts ih =>
    cases t with
    | nil => exact .drop rfl ih
    | cons c t => exact .keep ih

theorem isBlank_of_isBlankLine {t : List Char} (h : isBlankLine t = true) :
    ∀ c ∈ t, isBlank c = true := by
  obtain ⟨e, ht, he⟩ := exists_dropEndWhile_append isBreak t
  intro c hc
  rw [ht, List.mem_append] at hc
  rcases hc with hc | hc
  · have hi := List.all_eq_true.mp h c hc
    exact Spacing.isBlank_of_isIndent hi
  · have hb := he c hc
    simp only [isBreak, Bool.or_eq_true, beq_iff_eq] at hb
    rcases hb with rfl | rfl <;> decide

end BlankRun
end HotkeyScript
