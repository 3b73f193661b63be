import HotkeyScript.Proofs.Runs
import HotkeyScript.Proofs.Stability

/-!
# The limits that a formatted document keeps

Blank lines are limited before spaces are collapsed and after lines are re-indented, and each pass
has its own notion of a blank. Even so the document that comes out of all three begins with content,
has no longer run of blank lines than the settings allow and no run of spaces behind the indentation
of a line, and it ends in a line feed if the text did and anything is left of it.
-/

namespace HotkeyScript
namespace BlankRun

open Text

/-- Blank segments in front of what stays belong to the present run. Before any content has been
seen there are none. -/
theorem length_of_blank_prefix_keep {n : Nat} {seen : Bool} {run : Nat} {ts us : List (List Char)}
    (h : us <+: keep n seen run ts) (hus : ∀ t ∈ us, isBlankLine t = true) :
    us = [] ∨ seen = true ∧ us.length + run ≤ n := by
  fun_induction keep n seen run ts generalizing us with
  | case1 seen run => exact .inl (List.prefix_nil.mp h)
  | case2 run t ts ht hrun ih =>
    rcases List.prefix_cons_iff.mp h with rfl | ⟨us, rfl, hpre⟩
    · exact .inl rfl
    · have hrest := ih hpre fun t' ht' => hus t' (List.mem_cons_of_mem t ht')
      refine .inr ⟨rfl, ?_⟩
      rcases hrest with rfl | ⟨-, hlength⟩
      · rw [List.length_singleton]
        omega
      · rw [List.length_cons]
        omega
  | case3 run t ts ht hrun ih =>
    rcases ih h hus with rfl | ⟨-, hlength⟩
    · exact .inl rfl
    · exact .inr ⟨rfl, by omega⟩
  | case4 seen run t ts ht hseen ih =>
    exact ih h hus
  | case5 seen run t ts ht ih =>
    rcases List.prefix_cons_iff.mp h with rfl | ⟨us, rfl, h⟩
    · exact .inl rfl
    · exact absurd (hus t List.mem_cons_self) ht

theorem length_of_blank_infix_keep {n : Nat} {seen : Bool} {run : Nat} {ts us : List (List Char)}
    (h : us <:+: keep n seen run ts) (hus : ∀ t ∈ us, isBlankLine t = true) : us.length ≤ n := by
  have hfront : ∀ seen run ts, us <+: keep n seen run ts → us.length ≤ n := by
    intro seen run ts hpre
    rcases length_of_blank_prefix_keep hpre hus with rfl | ⟨-, hlength⟩
    · exact Nat.zero_le n
    · omega
  fun_induction keep n seen run ts with
  | case1 seen run =>
    rw [List.infix_nil.mp h]
    exact Nat.zero_le n
  | case2 run t ts ht hrun ih =>
    rcases List.infix_cons_iff.mp h with hpre | h
    · exact hfront true run (t :: ts) (by simpa [keep, ht, hrun] using hpre)
    · exact ih h
  | case3 run t ts ht hrun ih => exact ih h
  | case4 seen run t ts ht hseen ih => exact ih h
  | case5 seen run t ts ht ih =>
    rcases List.infix_cons_iff.mp h with hpre | h
    · exact hfront seen run (t :: ts) (by simpa [keep, ht] using hpre)
    · exact ih h

theorem isBlankLine_head?_keep {n : Nat} {run : Nat} {ts : List (List Char)} {t : List Char}
    (h : t ∈ (keep n false run ts).head?) : isBlankLine t = false := by
  by_contra hblank
  have hpre : [t] <+: keep n false run ts := by
    obtain ⟨rest, hrest⟩ := List.head?_eq_some_iff.mp h
    rw [hrest]
    exact ⟨rest, rfl⟩
  rcases length_of_blank_prefix_keep hpre (by simpa using hblank) with hnil | ⟨hseen, -⟩
  · exact List.cons_ne_nil t [] hnil
  · exact Bool.false_ne_true hseen

theorem limitSegments_sublist (n : Int32) (ts : List (List Char)) :
    (limitSegments n ts).Sublist ts := by
  unfold limitSegments
  split
  · exact List.Sublist.refl ts
  · exact keep_sublist _ _ _ _

end BlankRun

namespace Spacing

open Text

theorem not_infix_collapse (s : List Char) : ¬[' ', ' '] <:+: collapse s := by
  induction s using collapse_induction with
  | nil => simp
  | run s ih => rwa [collapse_space_space]
  | keep c s hc ih =>
    rw [collapse_cons_of_not hc, List.infix_cons_iff, not_or]
    refine ⟨fun hpre => ?_, ih⟩
    obtain ⟨rfl, hrest⟩ := List.cons_prefix_cons.mp hpre
    have hhead : (collapse s).head? = some ' ' := by
      obtain ⟨r, hr⟩ := hrest
      rw [← hr]
      rfl
    exact hc ⟨rfl, by rwa [head?_collapse] at hhead⟩

theorem dropWhile_collapseContent (s : List Char) :
    (collapseContent s).dropWhile isIndent = collapse (s.dropWhile isIndent) := by
  have hw : ∀ c ∈ s.takeWhile isIndent, isIndent c = true := fun c hc => List.mem_takeWhile_imp hc
  have hhead : ∀ c ∈ (collapse (s.dropWhile isIndent)).head?, isIndent c = false := by
    intro c hc
    have h := List.head?_dropWhile_not isIndent s
    rw [head?_collapse, Option.mem_def] at hc
    rw [hc] at h
    simpa using h
  rw [collapseContent, List.dropWhile_append_of_pos hw]
  cases hr : collapse (s.dropWhile isIndent) with
  | nil => rfl
  | cons c r =>
    have hc : isIndent c = false := hhead c (by rw [hr]; rfl)
    exact List.dropWhile_cons_of_neg (by simp [hc])

end Spacing

namespace Document

open Text Reflow BlankRun Spacing

theorem ends_in_feed_iff {text : List Char} :
    (text = [] ∨ text.getLast? = some '\n') ↔ ∀ t ∈ segments text, t.getLast? = some '\n' := by
  induction text using line_induction with
  | last l hl =>
    by_cases hne : l = []
    · simp [hne]
    · simp [segments_of_notMem hl hne, hne]
  | line l s hl ih =>
    rw [segments_line hl, List.forall_mem_cons, ← ih]
    cases s with
    | nil => simp
    | cons c s => simp

theorem ends_in_feed_reindent {style : Style} {text : List Char}
    (h : text.getLast? = some '\n') : (reindent style text).getLast? = some '\n' := by
  have hterminated : (rawLines text).2 = true := (rawLines_append h (List.cons_ne_nil '\n' [])).1
  have hlast : (terminator text).getLast? = some '\n' := by
    unfold terminator
    split <;> rfl
  rw [reindent, reindentFrom_eq, joined, if_pos hterminated, List.getLast?_append, hlast,
    Option.some_or]

theorem ends_in_feed_layOut (s : Settings) {text : List Char} (h : text.getLast? = some '\n') :
    layOut s text = [] ∨ (layOut s text).getLast? = some '\n' := by
  have hindented : ∀ t ∈ segments (indented s text), t.getLast? = some '\n' := by
    apply ends_in_feed_iff.mp
    right
    unfold indented
    split
    · exact ends_in_feed_reindent h
    · exact h
  have hlimited : ∀ t ∈ segments (limit s.maxBlankLines (indented s text)),
      t.getLast? = some '\n' := by
    intro t ht
    rw [segments_limit] at ht
    exact hindented t ((limitSegments_sublist _ _).subset ht)
  rw [ends_in_feed_iff, layOut_eq]
  split
  · intro t ht
    rw [segments_collapseSpaces] at ht
    obtain ⟨u, hu, rfl⟩ := List.mem_map.mp ht
    rw [getLast?_collapseContent]
    exact hlimited u hu
  · exact hlimited

theorem segments_layOut {s : Settings} (hs : 0 ≤ s.maxBlankLines) (text : List Char) :
    segments (layOut s text) =
      keep s.maxBlankLines.toInt.toNat false 0 (segments (layOut s text)) := by
  have hlimit := segments_limit s.maxBlankLines (layOut s text)
  rwa [limit_layOut, limitSegments, if_neg (Int32.not_lt.mpr hs)] at hlimit

theorem not_infix_of_mem_segments_layOut {s : Settings} (hs : s.trimExtraSpaces = true)
    {text t : List Char} (ht : t ∈ segments (layOut s text)) :
    ¬[' ', ' '] <:+: t.dropWhile isIndent := by
  rw [layOut_eq, if_pos hs, segments_collapseSpaces] at ht
  obtain ⟨u, -, rfl⟩ := List.mem_map.mp ht
  rw [dropWhile_collapseContent]
  exact not_infix_collapse _

/-- A formatted document keeps the limits of its settings. If blank lines are limited, it does not
begin with one and has no more of them in a row than the limit; if spaces are collapsed, no two of
them stand together behind the indentation of a line; and if the text ends in a line feed, then so
does the document, unless nothing is left of it. -/
theorem format_meets_limits {s : Settings} (hs : s.fault? = none) (text : List Char) :
    ∃ out, format s text = .ok out ∧
      (0 ≤ s.maxBlankLines →
        (∀ t ∈ (segments out).head?, isBlankLine t = false) ∧
        ∀ run, run <:+: segments out → (∀ t ∈ run, isBlankLine t = true) →
          (run.length : Int) ≤ s.maxBlankLines.toInt) ∧
      (s.trimExtraSpaces = true → ∀ t ∈ segments out, ¬[' ', ' '] <:+: t.dropWhile isIndent) ∧
      (text.getLast? = some '\n' → out = [] ∨ out.getLast? = some '\n') := by
  refine ⟨layOut s text, format_eq_ok_iff.mpr ⟨hs, rfl⟩, fun hlimit => ⟨?_, ?_⟩, ?_, ?_⟩
  · intro t ht
    rw [segments_layOut hlimit] at ht
    exact isBlankLine_head?_keep ht
  · intro run hrun hblank
    rw [segments_layOut hlimit] at hrun
    have hlength := length_of_blank_infix_keep hrun hblank
    have hnonneg : 0 ≤ s.maxBlankLines.toInt := Int32.le_iff_toInt_le.mp hlimit
    omega
  · exact fun htrim t ht => not_infix_of_mem_segments_layOut htrim ht
  · exact ends_in_feed_layOut s

def roughText : List Char :=
  "\n \t\r\n  a  :=  b  \r\n\r\n\u00a0\n\t \r\r\n\nc  \r\r\n".toList

theorem format_meets_limits_roughText :
    ∃ out, format { maxBlankLines := 1 } roughText = .ok out ∧
      (∀ run, run <:+: segments out → (∀ t ∈ run, isBlankLine t = true) →
        (run.length : Int) ≤ 1) ∧
      (∀ t ∈ segments out, ¬[' ', ' '] <:+: t.dropWhile isIndent) ∧
      (out = [] ∨ out.getLast? = some '\n') := by
  have hs : Settings.fault? { maxBlankLines := 1 } = none := by decide
  have hend : roughText.getLast? = some '\n' := by decide +kernel
  obtain ⟨out, hout, hlimit, htrim, hfeed⟩ := format_meets_limits hs roughText
  exact ⟨out, hout, (hlimit (by decide)).2, htrim rfl, hfeed hend⟩

end Document
end HotkeyScript
