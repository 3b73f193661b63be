import HotkeyScript.Reflow
import HotkeyScript.Proofs.Skeleton

/-!
# Hidden text

The inside of a string literal and a trailing comment are hidden from layout. Whether a line
invokes a command is decided on the line as it is written, but at the latest at the quote or the
semicolon that hidden text begins with, so no edit behind it changes the skeleton of a line, how the
line moves the state, or where it stands.
-/

namespace HotkeyScript
namespace Line

open Text Scan

def isMark (c : Char) : Bool := c == '"' || c == ';'

section Mark

variable {m : Char} (hm : isMark m = true)

include hm

theorem eq_of_isMark : m = '"' ∨ m = ';' := by
  simpa only [isMark, Bool.or_eq_true, beq_iff_eq] using hm

theorem isBlank_of_isMark : isBlank m = false := by
  rcases eq_of_isMark hm with rfl | rfl <;> decide

theorem isTokenChar_of_isMark : isTokenChar m = false := by
  rcases eq_of_isMark hm with rfl | rfl <;> decide

theorem mark_notMem_operator : ∀ p ∈ assignmentOperators.map String.toList, m ∉ p := by
  rcases eq_of_isMark hm with rfl | rfl <;> decide

theorem trimStart_append_mark (a x : List Char) :
    trimStart (a ++ m :: x) = trimStart a ++ m :: x := by
  by_cases h : trimStart a = []
  · rw [trimStart_append_of_blank (trimStart_eq_nil_iff.mp h), h,
      trimStart_cons_of_not_blank (isBlank_of_isMark hm), List.nil_append]
  · exact trimStart_append_of_ne_nil h

theorem headToken_append_mark (a x : List Char) : headToken (a ++ m :: x) = headToken a := by
  unfold headToken
  rw [trimStart_append_mark hm, List.takeWhile_append]
  split
  · next h =>
    have hall : (trimStart a).takeWhile isTokenChar = trimStart a :=
      (List.takeWhile_prefix _).eq_of_length h
    rw [hall, List.takeWhile_cons_of_neg (by simp [isTokenChar_of_isMark hm]), List.append_nil]
  · rfl

theorem afterToken_append_mark (a x : List Char) :
    afterToken (a ++ m :: x) = afterToken a ++ m :: x := by
  unfold afterToken
  rw [trimStart_append_mark hm, List.dropWhile_append]
  split
  · next h =>
    rw [List.isEmpty_iff.mp h, List.dropWhile_cons_of_neg (by simp [isTokenChar_of_isMark hm]),
      List.nil_append]
  · rfl

theorem startsArguments_append_mark (t x : List Char) :
    startsArguments (t ++ m :: x) = startsArguments t := by
  cases t with
  | nil => rcases eq_of_isMark hm with rfl | rfl <;> rfl
  | cons c t => rfl

omit hm in
theorem prefix_append_cons_iff {p : List Char} (hp : m ∉ p) (t x : List Char) :
    p <+: t ++ m :: x ↔ p <+: t := by
  constructor
  · intro h
    rcases List.prefix_or_prefix_of_prefix h (List.prefix_append t (m :: x)) with ht | ⟨k, rfl⟩
    · exact ht
    · rw [List.prefix_append_right_inj] at h
      cases k with
      | nil => simp
      | cons c k =>
        rw [List.cons_prefix_cons] at h
        exact absurd (by simp [h.1]) hp
  · intro h
    exact h.trans (List.prefix_append t _)

theorem assignment?_append_mark (t x : List Char) :
    assignment? (t ++ m :: x) = assignment? t := by
  unfold assignment?
  rw [trimStart_append_mark hm]
  refine List.find?_congr fun p hp => ?_
  rw [Bool.eq_iff_iff, List.isPrefixOf_iff_prefix, List.isPrefixOf_iff_prefix]
  exact prefix_append_cons_iff (mark_notMem_operator hm p hp) _ x

/-- Nothing from the first mark on decides whether a line invokes a command. -/
theorem invokes_append_mark (a x : List Char) : invokes (a ++ m :: x) = invokes a := by
  rw [invokes, invokes, headToken_append_mark hm, afterToken_append_mark hm,
    startsArguments_append_mark hm, assignment?_append_mark hm]

end Mark

/-- The second line comes from the first by another inside of a string literal, or without its
trailing comment. -/
inductive HiddenEdit : List Char → List Char → Prop
  | literal {p b b' r : List Char} (hp : State.code.after p = .string)
      (hb : kept .string b = [] ∧ State.string.after b = .string)
      (hb' : kept .string b' = [] ∧ State.string.after b' = .string) :
      HiddenEdit (p ++ b ++ r) (p ++ b' ++ r)
  | comment {p c : List Char} (hp : State.code.after p = .code) : HiddenEdit (p ++ ';' :: c) p

theorem inString_next {q : State} {c : Char} (hq : q.inString = false) (hc : c ≠ '"') :
    (q.next c).1.inString = false := by
  unfold State.next
  split <;> simp_all [State.inString]

theorem inString_after {q : State} {s : List Char} (hq : q.inString = false) (hs : '"' ∉ s) :
    (q.after s).inString = false := by
  induction s generalizing q with
  | nil => exact hq
  | cons c s ih =>
    rw [List.mem_cons, not_or] at hs
    exact ih (inString_next hq (Ne.symm hs.1)) hs.2

theorem quote_mem_of_after_code {p : List Char} (hp : State.code.after p = .string) : '"' ∈ p := by
  by_contra h
  have hin : (State.code.after p).inString = false := inString_after rfl h
  rw [hp] at hin
  exact Bool.noConfusion hin

theorem scanned_of_hiddenEdit {u v : List Char} (h : HiddenEdit u v) : scanned u = scanned v := by
  unfold scanned
  cases h with
  | @literal p b b' r hp hb hb' =>
    have hkept : kept .code (p ++ b ++ r) = kept .code (p ++ b' ++ r) := by
      rw [kept_append, kept_append, after_append, hp, hb.1, hb.2, kept_append, kept_append,
        after_append, hp, hb'.1, hb'.2]
    rw [hkept]
  | comment hp =>
    have hcomment : ∀ c, kept .code (';' :: c) = [] := fun c => kept_comment c
    rw [kept_append, hp, hcomment, List.append_nil]

theorem skeleton_of_hiddenEdit {u v : List Char} (h : HiddenEdit u v) (hu : '\n' ∉ u)
    (hv : '\n' ∉ v) : skeleton u = skeleton v := by
  rw [skeleton_eq_ite hu, skeleton_eq_ite hv, scanned_of_hiddenEdit h]
  cases h with
  | @literal p b b' r hp _ _ =>
    obtain ⟨a, x, rfl, -⟩ := List.eq_append_cons_of_mem (quote_mem_of_after_code hp)
    have hm : isMark '"' = true := rfl
    simp only [List.append_assoc, List.cons_append]
    rw [invokes_append_mark hm, headToken_append_mark hm, invokes_append_mark hm,
      headToken_append_mark hm]
  | @comment p c hp =>
    have hm : isMark ';' = true := rfl
    rw [invokes_append_mark hm, headToken_append_mark hm]

end Line

namespace Reflow

open Text Line

/-- Hidden text has no influence on layout: two lines of code that differ in it alone move every
state alike, have one skeleton, and are put behind the same indentation. -/
theorem step_ignores_hidden_text {style : Style} {q : State} {u v : List Char}
    (hq : q.inComment = false) (hu : '\n' ∉ u) (hv : '\n' ∉ v) (hou : opensComment u = false)
    (hov : opensComment v = false) (h : HiddenEdit u v) :
    (step style q u).1 = (step style q v).1 ∧ skeleton u = skeleton v ∧
      (style.keepContinuation = false → trimStart u ≠ [] → trimStart v ≠ [] →
        ∃ d, (step style q u).2 = style.indentation d ++ trimStart u ∧
          (step style q v).2 = style.indentation d ++ trimStart v) := by
  have hscan : scanned u = scanned v := scanned_of_hiddenEdit h
  have hskel : skeleton u = skeleton v := skeleton_of_hiddenEdit h hu hv
  rw [step_of_code hq hou, step_of_code hq hov]
  refine ⟨?_, hskel, fun hkeep hbu hbv => ?_⟩
  · split
    · simp only [continuedStep, hscan]
    · simp only [plainStep, hskel]
  · split
    · exact ⟨q.depth + 1, by simp [continuedStep, hkeep, Style.indent, hbu],
        by simp [continuedStep, hkeep, Style.indent, hbv]⟩
    · exact ⟨(openDepth q.depth (skeleton v)).1, by simp [plainStep, hskel, Style.indent, hbu],
        by simp [plainStep, Style.indent, hbv]⟩

theorem step_ignores_hidden_text_edits :
    (step {} { depth := 2 } "\x7d f(\"((\")".toList).1 =
        (step {} { depth := 2 } "\x7d f(\"\")".toList).1 ∧
      (step {} { depth := 2 } "Run ; \x7b".toList).1 =
        (step {} { depth := 2 } "Run ".toList).1 := by
  have hliteral : HiddenEdit "\x7d f(\"((\")".toList "\x7d f(\"\")".toList :=
    @HiddenEdit.literal "\x7d f(\"".toList "((".toList [] "\")".toList
      (by decide) (by decide) (by decide)
  have hcomment : HiddenEdit "Run ; \x7b".toList "Run ".toList :=
    @HiddenEdit.comment "Run ".toList " \x7b".toList (by decide)
  refine ⟨?_, ?_⟩
  · exact (step_ignores_hidden_text rfl (by decide) (by decide) (by decide) (by decide) hliteral).1
  · exact (step_ignores_hidden_text rfl (by decide) (by decide) (by decide) (by decide) hcomment).1

end Reflow
end HotkeyScript
