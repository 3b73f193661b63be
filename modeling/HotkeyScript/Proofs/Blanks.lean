import HotkeyScript.Document
import HotkeyScript.Text.Basic
import Mathlib.Data.List.DropRight
import Mathlib.Data.List.TakeWhile

/-!
# Blanks and runs of spaces

How trimming, collapsing runs of spaces and dropping line breaks act on each other. Collapsing
changes neither end of a text, so it commutes with trimming at the front and with whatever stands
after the last character that is not a space.
-/

namespace HotkeyScript
namespace Text

theorem dropEndWhile_eq_rdropWhile (p : Char → Bool) (s : List Char) :
    dropEndWhile p s = s.rdropWhile p := rfl

theorem trimStart_eq_nil_iff {s : List Char} : trimStart s = [] ↔ ∀ c ∈ s, isBlank c = true :=
  List.dropWhile_eq_nil_iff

@[simp] theorem trimStart_cons_of_blank {c : Char} {s : List Char} (h : isBlank c = true) :
    trimStart (c :: s) = trimStart s :=
  List.dropWhile_cons_of_pos h

@[simp] theorem trimStart_cons_of_not_blank {c : Char} {s : List Char} (h : isBlank c = false) :
    trimStart (c :: s) = c :: s :=
  List.dropWhile_cons_of_neg (by simp [h])

theorem trimStart_append_of_blank {w s : List Char} (h : ∀ c ∈ w, isBlank c = true) :
    trimStart (w ++ s) = trimStart s :=
  List.dropWhile_append_of_pos h

theorem trimStart_append_of_ne_nil {s t : List Char} (h : trimStart s ≠ []) :
    trimStart (s ++ t) = trimStart s ++ t := by
  unfold trimStart at h ⊢
  rw [List.dropWhile_append, if_neg]
  simpa [List.isEmpty_iff] using h

theorem exists_cons_of_trimStart_ne_nil {s : List Char} (h : trimStart s ≠ []) :
    ∃ c r, trimStart s = c :: r ∧ isBlank c = false := by
  induction s with
  | nil => exact absurd trimStart_nil h
  | cons c s ih =>
    by_cases hc : isBlank c = true
    · rw [trimStart_cons_of_blank hc] at h ⊢
      exact ih h
    · rw [Bool.not_eq_true] at hc
      exact ⟨c, s, trimStart_cons_of_not_blank hc, hc⟩

theorem trimEnd_eq_nil_iff {s : List Char} : trimEnd s = [] ↔ ∀ c ∈ s, isBlank c = true := by
  rw [trimEnd, dropEndWhile_eq_rdropWhile, List.rdropWhile_eq_nil_iff]

theorem dropEndWhile_append {p : Char → Bool} (s : List Char) {e : List Char}
    (h : ∀ c ∈ e, p c = true) : dropEndWhile p (s ++ e) = dropEndWhile p s := by
  unfold dropEndWhile
  rw [List.reverse_append, List.dropWhile_append_of_pos]
  intro c hc
  exact h c (List.mem_reverse.mp hc)

theorem dropEndWhile_append_of_last {p : Char → Bool} {s : List Char}
    (h : ∀ c ∈ s.getLast?, p c = false) (e : List Char) :
    dropEndWhile p (s ++ e) = s ++ dropEndWhile p e := by
  cases s using List.reverseRecOn with
  | nil => rfl
  | append_singleton s c =>
    have hc : p c = false := h c (by simp)
    unfold dropEndWhile
    rw [List.reverse_append, List.dropWhile_append, List.reverse_concat]
    split
    · next he =>
      rw [List.isEmpty_iff.mp he, List.dropWhile_cons_of_neg (by simp [hc])]
      simp
    · simp

theorem exists_dropEndWhile_append (p : Char → Bool) (s : List Char) :
    ∃ e, s = dropEndWhile p s ++ e ∧ ∀ c ∈ e, p c = true := by
  refine ⟨s.rtakeWhile p, List.rdropWhile_append_rtakeWhile.symm, ?_⟩
  intro c hc
  exact List.mem_rtakeWhile_imp hc

theorem not_of_mem_getLast?_dropEndWhile {p : Char → Bool} {s : List Char} {c : Char}
    (h : c ∈ (dropEndWhile p s).getLast?) : p c = false := by
  obtain ⟨hne, rfl⟩ := List.mem_getLast?_eq_getLast h
  exact Bool.not_eq_true _ ▸ List.rdropWhile_last_not p s hne

theorem dropEndWhile_eq_self {p : Char → Bool} {s : List Char}
    (h : ∀ c ∈ s.getLast?, p c = false) : dropEndWhile p s = s := by
  refine List.rdropWhile_eq_self_iff.mpr fun hne => ?_
  rw [h _ (List.getLast_mem_getLast? hne)]
  exact Bool.false_ne_true

theorem trim_cons_of_not_blank {c : Char} (hc : isBlank c = false) (s : List Char) :
    trim (c :: s) = c :: trimEnd s := by
  have hlast : ∀ d ∈ [c].getLast?, isBlank d = false := by simpa using hc
  rw [trim, trimStart_cons_of_not_blank hc]
  exact dropEndWhile_append_of_last hlast s

theorem trimStart_eq_self {s : List Char} (h : ∀ c ∈ s.head?, isBlank c = false) :
    trimStart s = s := by
  cases s with
  | nil => rfl
  | cons c s => exact trimStart_cons_of_not_blank (h c rfl)

theorem head?_trimStart (s : List Char) : ∀ c ∈ (trimStart s).head?, isBlank c = false := by
  intro c hc
  have h := List.head?_dropWhile_not isBlank s
  rw [← trimStart, Option.mem_def.mp hc] at h
  simpa using h

theorem mem_head?_of_trimEnd {s : List Char} {c : Char} (h : c ∈ (trimEnd s).head?) :
    c ∈ s.head? := by
  obtain ⟨e, hs, -⟩ := exists_dropEndWhile_append isBlank s
  rw [hs, List.head?_append, ← trimEnd, Option.mem_def.mp h, Option.some_or, Option.mem_some_iff]

theorem trimStart_trim (s : List Char) : trimStart (trim s) = trim s :=
  trimStart_eq_self fun c hc => head?_trimStart s c (mem_head?_of_trimEnd hc)

@[simp] theorem trim_trim (s : List Char) : trim (trim s) = trim s := by
  have hend : trimEnd (trim s) = trim s :=
    dropEndWhile_eq_self fun _ hc => not_of_mem_getLast?_dropEndWhile hc
  rw [trim, trimStart_trim, hend]

@[simp] theorem isBlank_space : isBlank ' ' = true := by decide

@[simp] theorem isBreak_return : isBreak '\r' = true := rfl

@[simp] theorem isBreak_feed : isBreak '\n' = true := rfl

end Text

namespace Spacing

open Text

theorem isBlank_of_isIndent {c : Char} (h : isIndent c = true) : isBlank c = true := by
  simp only [isIndent, Bool.or_eq_true, beq_iff_eq] at h
  rcases h with rfl | rfl <;> decide

theorem collapse_space_space (s : List Char) :
    collapse (' ' :: ' ' :: s) = collapse (' ' :: s) := by
  rw [collapse, if_pos ⟨rfl, rfl⟩]

theorem collapse_cons_of_ne {c : Char} (hc : c ≠ ' ') (s : List Char) :
    collapse (c :: s) = c :: collapse s := by
  rw [collapse, if_neg (by simp [hc])]

/-- A text is empty, starts with two spaces, or starts with a character that collapsing keeps. -/
theorem collapse_induction {P : List Char → Prop} (nil : P [])
    (run : ∀ s, P (' ' :: s) → P (' ' :: ' ' :: s))
    (keep : ∀ c s, ¬(c = ' ' ∧ s.head? = some ' ') → P s → P (c :: s)) (s : List Char) : P s := by
  induction s with
  | nil => exact nil
  | cons c s ih =>
    by_cases hc : c = ' ' ∧ s.head? = some ' '
    · obtain ⟨rfl, hs⟩ := hc
      obtain ⟨r, rfl⟩ := List.head?_eq_some_iff.mp hs
      exact run r ih
    · exact keep c s hc ih

theorem collapse_cons_of_not {c : Char} {s : List Char} (h : ¬(c = ' ' ∧ s.head? = some ' ')) :
    collapse (c :: s) = c :: collapse s := by
  rw [collapse, if_neg h]

@[simp] theorem head?_collapse (s : List Char) : (collapse s).head? = s.head? := by
  induction s using collapse_induction with
  | nil => rfl
  | run s ih => rw [collapse_space_space, ih]; rfl
  | keep c s hc ih => rw [collapse_cons_of_not hc]; rfl

@[simp] theorem collapse_eq_nil_iff {s : List Char} : collapse s = [] ↔ s = [] := by
  rw [← List.head?_eq_none_iff, head?_collapse, List.head?_eq_none_iff]

@[simp] theorem collapse_collapse (s : List Char) : collapse (collapse s) = collapse s := by
  induction s using collapse_induction with
  | nil => rfl
  | run s ih => rw [collapse_space_space, ih]
  | keep c s hc ih =>
    rw [collapse_cons_of_not hc, collapse_cons_of_not (by rwa [head?_collapse]), ih]

@[simp] theorem mem_collapse {c : Char} {s : List Char} : c ∈ collapse s ↔ c ∈ s := by
  induction s using collapse_induction with
  | nil => rfl
  | run s ih => rw [collapse_space_space, ih]; simp
  | keep d s hd ih => rw [collapse_cons_of_not hd, List.mem_cons, List.mem_cons, ih]

@[simp] theorem getLast?_collapse (s : List Char) : (collapse s).getLast? = s.getLast? := by
  induction s using collapse_induction with
  | nil => rfl
  | run s ih => rw [collapse_space_space, ih]; simp
  | keep c s hc ih => rw [collapse_cons_of_not hc, List.getLast?_cons, List.getLast?_cons, ih]

/-- Two texts collapse apart from each other if no run of spaces reaches from one to the other. -/
theorem collapse_append {s t : List Char} (h : ¬(s.getLast? = some ' ' ∧ t.head? = some ' ')) :
    collapse (s ++ t) = collapse s ++ collapse t := by
  induction s using collapse_induction with
  | nil => rfl
  | run s ih =>
    have hs : collapse (' ' :: s ++ t) = collapse (' ' :: s) ++ collapse t :=
      ih (by simpa [List.getLast?_cons] using h)
    simpa [collapse_space_space] using hs
  | keep c s hc ih =>
    have hst : ¬(c = ' ' ∧ (s ++ t).head? = some ' ') := by
      rintro ⟨rfl, hh⟩
      cases s with
      | nil => exact h ⟨rfl, by simpa using hh⟩
      | cons d s => exact hc ⟨rfl, by simpa using hh⟩
    have hs : ¬(s.getLast? = some ' ' ∧ t.head? = some ' ') := by
      rintro ⟨hl, ht⟩
      exact h ⟨by simp [List.getLast?_cons, hl], ht⟩
    rw [List.cons_append, collapse_cons_of_not hst, ih hs, collapse_cons_of_not hc,
      List.cons_append]

theorem collapse_eq_self_of_notMem {s : List Char} (h : ' ' ∉ s) : collapse s = s := by
  induction s with
  | nil => rfl
  | cons c s ih =>
    rw [List.mem_cons, not_or] at h
    rw [collapse_cons_of_ne (Ne.symm h.1), ih h.2]

theorem trimStart_collapse (s : List Char) : trimStart (collapse s) = collapse (trimStart s) := by
  induction s using collapse_induction with
  | nil => rfl
  | run s ih => simpa [collapse_space_space] using ih
  | keep c s hc ih =>
    rw [collapse_cons_of_not hc]
    by_cases hb : isBlank c = true
    · rw [trimStart_cons_of_blank hb, trimStart_cons_of_blank hb, ih]
    · rw [Bool.not_eq_true] at hb
      rw [trimStart_cons_of_not_blank hb, trimStart_cons_of_not_blank hb, collapse_cons_of_not hc]

/-- Dropping a tail and collapsing can be done in either order: the tail takes a whole run of spaces
with it, or none of them. -/
theorem dropEndWhile_collapse (p : Char → Bool) (s : List Char) :
    dropEndWhile p (collapse s) = collapse (dropEndWhile p s) := by
  obtain ⟨e, hs, he⟩ := exists_dropEndWhile_append p s
  have hlast : ∀ c ∈ (dropEndWhile p s).getLast?, p c = false := fun c hc =>
    not_of_mem_getLast?_dropEndWhile hc
  have happ : collapse s = collapse (dropEndWhile p s) ++ collapse e := by
    nth_rewrite 1 [hs]
    refine collapse_append ?_
    rintro ⟨hsp, hsp'⟩
    have hkeep := hlast ' ' hsp
    have hgo := he ' ' (List.mem_of_mem_head? hsp')
    exact Bool.false_ne_true (hkeep.symm.trans hgo)
  have hgo : ∀ c ∈ collapse e, p c = true := fun c hc => he c (mem_collapse.mp hc)
  rw [happ, dropEndWhile_append _ hgo]
  exact dropEndWhile_eq_self (by rwa [getLast?_collapse])

theorem trim_collapse (s : List Char) : trim (collapse s) = collapse (trim s) := by
  rw [trim, trimStart_collapse, trimEnd, dropEndWhile_collapse, trim, trimEnd]

theorem count_collapse {c : Char} (hc : c ≠ ' ') (s : List Char) :
    (collapse s).count c = s.count c := by
  induction s using collapse_induction with
  | nil => rfl
  | run s ih =>
    rw [collapse_space_space, ih, List.count_cons_of_ne hc.symm, List.count_cons_of_ne hc.symm,
      List.count_cons_of_ne hc.symm]
  | keep d s hd ih => rw [collapse_cons_of_not hd, List.count_cons, List.count_cons, ih]

theorem prefix_collapse_iff {p s : List Char} (hp : ' ' ∉ p) : p <+: collapse s ↔ p <+: s := by
  induction p generalizing s with
  | nil => simp
  | cons a p ih =>
    rw [List.mem_cons, not_or] at hp
    cases s with
    | nil => simp
    | cons c s =>
      by_cases hc : c = ' '
      · have hac : a ≠ c := fun h => hp.1 (hc ▸ h.symm)
        obtain ⟨r, hr⟩ := List.head?_eq_some_iff.mp (head?_collapse (c :: s))
        simp [hr, List.cons_prefix_cons, hac]
      · rw [collapse_cons_of_ne hc, List.cons_prefix_cons, List.cons_prefix_cons, ih hp.2]

theorem takeWhile_collapse {p : Char → Bool} (hp : p ' ' = false) (s : List Char) :
    (collapse s).takeWhile p = s.takeWhile p := by
  induction s using collapse_induction with
  | nil => rfl
  | run s ih => rw [collapse_space_space, ih]; simp [hp]
  | keep c s hc ih => rw [collapse_cons_of_not hc, List.takeWhile_cons, List.takeWhile_cons, ih]

theorem dropWhile_collapse {p : Char → Bool} (hp : p ' ' = false) (s : List Char) :
    (collapse s).dropWhile p = collapse (s.dropWhile p) := by
  induction s using collapse_induction with
  | nil => rfl
  | run s ih => rw [collapse_space_space, ih]; simp [hp, collapse_space_space]
  | keep c s hc ih =>
    rw [collapse_cons_of_not hc, List.dropWhile_cons, List.dropWhile_cons]
    split
    · exact ih
    · rw [collapse_cons_of_not hc]

/-- The indentation of a line and the content after it, which alone is collapsed. -/
theorem exists_indent_append (s : List Char) :
    ∃ w r, s = w ++ r ∧ (∀ c ∈ w, isIndent c = true) ∧ (∀ c ∈ r.head?, isIndent c = false) ∧
      collapseContent s = w ++ collapse r := by
  refine ⟨s.takeWhile isIndent, s.dropWhile isIndent, List.takeWhile_append_dropWhile.symm, ?_, ?_,
    rfl⟩
  · intro c hc
    exact List.mem_takeWhile_imp hc
  · intro c hc
    have h := List.head?_dropWhile_not isIndent s
    rw [Option.mem_def.mp hc] at h
    simpa using h

theorem collapseContent_append_of_indent {w : List Char} (hw : ∀ c ∈ w, isIndent c = true)
    (s : List Char) : collapseContent (w ++ s) = w ++ collapseContent s := by
  unfold collapseContent
  rw [List.takeWhile_append_of_pos hw, List.dropWhile_append_of_pos hw, List.append_assoc]

theorem collapseContent_of_head {s : List Char} (h : ∀ c ∈ s.head?, isIndent c = false) :
    collapseContent s = collapse s := by
  cases s with
  | nil => rfl
  | cons c s =>
    have hc : isIndent c = false := h c rfl
    simp [collapseContent, hc]

@[simp] theorem collapseContent_nil : collapseContent [] = [] := rfl

theorem collapseContent_eq_self_of_indent {w : List Char} (hw : ∀ c ∈ w, isIndent c = true) :
    collapseContent w = w := by
  have h := collapseContent_append_of_indent hw []
  simpa using h

theorem trimStart_collapseContent (s : List Char) :
    trimStart (collapseContent s) = collapse (trimStart s) := by
  obtain ⟨w, r, rfl, hw, -, h⟩ := exists_indent_append s
  have hb : ∀ c ∈ w, isBlank c = true := fun c hc => isBlank_of_isIndent (hw c hc)
  rw [h, trimStart_append_of_blank hb, trimStart_append_of_blank hb, trimStart_collapse]

@[simp] theorem mem_collapseContent {c : Char} {s : List Char} : c ∈ collapseContent s ↔ c ∈ s := by
  obtain ⟨w, r, rfl, -, -, h⟩ := exists_indent_append s
  rw [h, List.mem_append, List.mem_append, mem_collapse]

@[simp] theorem getLast?_collapseContent (s : List Char) :
    (collapseContent s).getLast? = s.getLast? := by
  obtain ⟨w, r, rfl, -, -, h⟩ := exists_indent_append s
  rw [h, List.getLast?_append, List.getLast?_append, getLast?_collapse]

@[simp] theorem collapseContent_eq_nil_iff {s : List Char} : collapseContent s = [] ↔ s = [] := by
  rw [← List.getLast?_eq_none_iff, getLast?_collapseContent, List.getLast?_eq_none_iff]

@[simp] theorem collapseContent_collapseContent (s : List Char) :
    collapseContent (collapseContent s) = collapseContent s := by
  obtain ⟨w, r, rfl, hw, hr, h⟩ := exists_indent_append s
  have hc : collapseContent (collapse r) = collapse (collapse r) :=
    collapseContent_of_head (by rwa [head?_collapse])
  rw [h, collapseContent_append_of_indent hw, hc, collapse_collapse]

theorem isIndent_eq_false_of_isBreak {c : Char} (h : isBreak c = true) : isIndent c = false := by
  simp only [isBreak, Bool.or_eq_true, beq_iff_eq] at h
  rcases h with rfl | rfl <;> decide

/-- A line break at the end of a line is no part of what is collapsed. -/
theorem collapseContent_append_of_isBreak (s : List Char) {e : List Char}
    (he : ∀ c ∈ e, isBreak c = true) : collapseContent (s ++ e) = collapseContent s ++ e := by
  have hhead : ∀ c ∈ e.head?, isIndent c = false := fun c hc =>
    isIndent_eq_false_of_isBreak (he c (List.mem_of_mem_head? hc))
  have hspace : ' ' ∉ e := fun h => absurd (he _ h) (by decide)
  obtain ⟨w, r, rfl, hw, hr, h⟩ := exists_indent_append s
  have hre : ∀ c ∈ (r ++ e).head?, isIndent c = false := by
    intro c hc
    cases r with
    | nil => exact hhead c hc
    | cons d r => exact hr c hc
  have happ : collapse (r ++ e) = collapse r ++ e := by
    rw [collapse_append, collapse_eq_self_of_notMem hspace]
    rintro ⟨-, hs⟩
    exact absurd (hhead ' ' hs) (by decide)
  rw [List.append_assoc, collapseContent_append_of_indent hw, collapseContent_of_head hre, happ, h,
    List.append_assoc]

end Spacing
end HotkeyScript
