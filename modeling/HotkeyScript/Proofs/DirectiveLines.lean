import HotkeyScript.Directive
import HotkeyScript.Proofs.Conservation
import HotkeyScript.Proofs.Skeleton

/-!
# Formatting keeps the directives

The option words of a directive line depend neither on the blanks around the line nor on how long
its runs of spaces are. So they can be read off the code of a text, which formatting keeps, and a
formatted script has the directives of the script, in the same order.
-/

namespace HotkeyScript
namespace Text

open Spacing

theorem trim_append_of_blank (s : List Char) {e : List Char} (he : ∀ c ∈ e, isBlank c = true) :
    trim (s ++ e) = trim s := by
  by_cases h : trimStart s = []
  · have hse : trimStart (s ++ e) = [] := by
      rw [trimStart_append_of_blank (trimStart_eq_nil_iff.mp h), trimStart_eq_nil_iff.mpr he]
    rw [trim, trim, h, hse]
  · rw [trim, trim, trimStart_append_of_ne_nil h, trimEnd, trimEnd, dropEndWhile_append _ he]

/-- Collapsing takes empty pieces from between the blanks, but never the first piece. -/
theorem splitOnP_collapse (s : List Char) :
    ∃ w ps qs, (collapse s).splitOnP isBlank = w :: ps ∧ s.splitOnP isBlank = w :: qs ∧
      ps.filter (!·.isEmpty) = qs.filter (!·.isEmpty) := by
  induction s using collapse_induction with
  | nil => exact ⟨[], [], [], List.splitOnP_nil, List.splitOnP_nil, rfl⟩
  | run s ih =>
    obtain ⟨w, ps, qs, hps, hqs, h⟩ := ih
    rw [collapse_space_space]
    rw [List.splitOnP_cons_eq_if_modifyHead, if_pos isBlank_space] at hqs
    obtain ⟨rfl, rfl⟩ := List.cons.inj hqs
    refine ⟨[], ps, [] :: s.splitOnP isBlank, hps, ?_, ?_⟩
    · rw [List.splitOnP_cons_eq_if_modifyHead, if_pos isBlank_space,
        List.splitOnP_cons_eq_if_modifyHead, if_pos isBlank_space]
    · rw [List.filter_cons_of_neg (by simp), h]
  | keep c s hc ih =>
    obtain ⟨w, ps, qs, hps, hqs, h⟩ := ih
    rw [collapse_cons_of_not hc, List.splitOnP_cons_eq_if_modifyHead,
      List.splitOnP_cons_eq_if_modifyHead, hps, hqs]
    split
    · exact ⟨[], w :: ps, w :: qs, rfl, rfl, by rw [List.filter_cons, List.filter_cons, h]⟩
    · exact ⟨c :: w, ps, qs, rfl, rfl, h⟩

@[simp] theorem words_collapse (s : List Char) : words (collapse s) = words s := by
  obtain ⟨w, ps, qs, hps, hqs, h⟩ := splitOnP_collapse s
  rw [words, words, hps, hqs, List.filter_cons, List.filter_cons, h]

theorem dropCaseless?_append {w e : List Char} (he : ∀ c ∈ e, foldCase c ∉ w) (s : List Char) :
    dropCaseless? w (s ++ e) = (dropCaseless? w s).map (· ++ e) := by
  induction w generalizing s with
  | nil => rfl
  | cons a w ih =>
    have hw : ∀ c ∈ e, foldCase c ∉ w := fun c hc h => he c hc (List.mem_cons_of_mem a h)
    cases s with
    | nil =>
      cases e with
      | nil => rfl
      | cons c e =>
        have hca : foldCase c ≠ a := fun h => he c List.mem_cons_self (h ▸ List.mem_cons_self)
        simp [dropCaseless?, hca]
    | cons c s =>
      by_cases hca : foldCase c = a
      · simpa [dropCaseless?, hca] using ih hw s
      · simp [dropCaseless?, hca]

theorem dropCaseless?_collapse {w : List Char} (hw : foldCase ' ' ∉ w) (s : List Char) :
    dropCaseless? w (collapse s) = (dropCaseless? w s).map collapse := by
  induction w generalizing s with
  | nil => rfl
  | cons a w ih =>
    rw [List.mem_cons, not_or] at hw
    cases s with
    | nil => rfl
    | cons c s =>
      by_cases hc : c = ' '
      · subst hc
        obtain ⟨r, hr⟩ := List.head?_eq_some_iff.mp (head?_collapse (' ' :: s))
        simp [hr, dropCaseless?, hw.1]
      · rw [collapse_cons_of_ne hc]
        by_cases hca : foldCase c = a
        · simpa [dropCaseless?, hca] using ih hw.2 s
        · simp [dropCaseless?, hca]

theorem exists_lineOf_append (t : List Char) :
    ∃ e, t = lineOf t ++ e ∧ ∀ c ∈ e, isBreak c = true := by
  unfold lineOf dropLast? dropReturn
  split
  · exact ⟨[], by simp, by simp⟩
  · next u hu =>
    split at hu
    · next hfeed =>
      obtain ⟨u', rfl⟩ := List.getLast?_eq_some_iff.mp hfeed
      obtain rfl : u' = u := by simpa using hu
      split
      · next hreturn =>
        obtain ⟨v, rfl⟩ := List.getLast?_eq_some_iff.mp hreturn
        exact ⟨['\r', '\n'], by simp, by simp⟩
      · exact ⟨['\n'], rfl, by simp⟩
    · exact absurd hu (by simp)

end Text

namespace Directive

open Text Spacing Document

def comment? (line : List Char) : Option (List Char) :=
  if (trimStart line).head? = some ';' then some (trimStart line).tail else none

def marked? (comment : List Char) : Option (List Char) :=
  (dropCaseless? mark (trimStart comment)).map trim

theorem arguments?_eq (line : List Char) :
    arguments? line = ((comment? line).bind marked?).filter ('\n' ∉ ·) := by
  unfold arguments? comment? marked?
  cases trimStart line with
  | nil => rfl
  | cons c r =>
    by_cases hc : c = ';'
    · subst hc
      cases h : dropCaseless? mark (trimStart r) <;> simp [h, Option.filter]
    · simp [hc]

theorem foldCase_notMem_mark {c : Char} (h : isBlank c = true) : foldCase c ∉ mark := by
  have hall : ∀ n ∈ Line.blankCodes, foldCase (Char.ofNat n) ∉ mark := by decide +kernel
  exact Line.forall_of_blankCodes (P := fun c => foldCase c ∉ mark) hall h

theorem comment?_trimStart (line : List Char) : comment? (trimStart line) = comment? line := by
  rw [comment?, comment?, trimStart_trimStart]

theorem comment?_append (line : List Char) {e : List Char} (he : ∀ c ∈ e, isBlank c = true) :
    comment? (line ++ e) = (comment? line).map (· ++ e) := by
  unfold comment?
  by_cases h : trimStart line = []
  · rw [trimStart_append_of_blank (trimStart_eq_nil_iff.mp h), trimStart_eq_nil_iff.mpr he, h]
    rfl
  · obtain ⟨c, r, hr⟩ := List.exists_cons_of_ne_nil h
    rw [trimStart_append_of_ne_nil h, hr]
    split <;> simp_all

theorem comment?_collapse (line : List Char) :
    comment? (collapse line) = (comment? line).map collapse := by
  unfold comment?
  rw [trimStart_collapse, head?_collapse]
  split
  · next h =>
    obtain ⟨r, hr⟩ := List.head?_eq_some_iff.mp h
    rw [hr, collapse_cons_of_ne (by decide)]
    rfl
  · rfl

theorem marked?_append (comment : List Char) {e : List Char} (he : ∀ c ∈ e, isBlank c = true) :
    marked? (comment ++ e) = marked? comment := by
  unfold marked?
  by_cases h : trimStart comment = []
  · rw [trimStart_append_of_blank (trimStart_eq_nil_iff.mp h), trimStart_eq_nil_iff.mpr he, h]
  · have hmark : ∀ c ∈ e, foldCase c ∉ mark := fun c hc => foldCase_notMem_mark (he c hc)
    rw [trimStart_append_of_ne_nil h, dropCaseless?_append hmark, Option.map_map]
    congr 1
    funext r
    exact trim_append_of_blank r he

theorem marked?_collapse (comment : List Char) :
    marked? (collapse comment) = (marked? comment).map collapse := by
  have hmark : foldCase ' ' ∉ mark := foldCase_notMem_mark isBlank_space
  unfold marked?
  rw [trimStart_collapse, dropCaseless?_collapse hmark, Option.map_map, Option.map_map]
  congr 1
  funext r
  exact trim_collapse r

theorem arguments?_trimStart (line : List Char) :
    arguments? (trimStart line) = arguments? line := by
  rw [arguments?_eq, arguments?_eq, comment?_trimStart]

theorem arguments?_append (line : List Char) {e : List Char} (he : ∀ c ∈ e, isBlank c = true) :
    arguments? (line ++ e) = arguments? line := by
  rw [arguments?_eq, arguments?_eq, comment?_append line he]
  cases comment? line with
  | none => rfl
  | some comment => rw [Option.map_some, Option.bind_some, Option.bind_some, marked?_append _ he]

theorem arguments?_collapse (line : List Char) :
    arguments? (collapse line) = (arguments? line).map collapse := by
  rw [arguments?_eq, arguments?_eq, comment?_collapse]
  cases comment? line with
  | none => rfl
  | some comment =>
    rw [Option.map_some, Option.bind_some, Option.bind_some, marked?_collapse]
    cases marked? comment with
    | none => rfl
    | some args => by_cases h : '\n' ∈ args <;> simp [Option.filter, h]

/-- The words of a directive line, or nothing if the line is none. -/
def optionWords? (line : List Char) : Option (List (List Char)) := (arguments? line).map words

theorem optionWords?_collapse (line : List Char) :
    optionWords? (collapse line) = optionWords? line := by
  rw [optionWords?, optionWords?, arguments?_collapse, Option.map_map]
  congr 1
  funext args
  exact words_collapse args

theorem optionWords?_lineOf (t : List Char) : optionWords? (lineOf t) = optionWords? t := by
  obtain ⟨e, ht, he⟩ := exists_lineOf_append t
  have h := arguments?_append (lineOf t) fun c hc => isBlank_of_isBreak (he c hc)
  rw [← ht] at h
  rw [optionWords?, optionWords?, h]

theorem optionWords?_codeOf (t : List Char) : optionWords? (codeOf t) = optionWords? t := by
  obtain ⟨e, ht, he⟩ := exists_dropEndWhile_append isBreak (trimStart t)
  have h := arguments?_append (codeOf t) fun c hc => isBlank_of_isBreak (he c hc)
  have hcode : trimStart t = codeOf t ++ e := ht
  rw [← hcode, arguments?_trimStart] at h
  rw [optionWords?, optionWords?, h]

def optionLines (text : List Char) : List (List (List Char)) := (lines text).filterMap optionWords?

def overrides? (ws : List (List Char)) : Option Overrides :=
  if (readWords {} ws).isEmpty then none else some (readWords {} ws)

theorem parse?_eq (line : List Char) : parse? line = (optionWords? line).bind overrides? := by
  unfold parse? optionWords?
  cases arguments? line <;> rfl

theorem bind_find? (ls : List (List Char)) :
    (ls.find? isDirective).bind parse? = (ls.filterMap optionWords?).head?.bind overrides? := by
  induction ls with
  | nil => rfl
  | cons l ls ih =>
    cases h : arguments? l with
    | none =>
      have hdirective : isDirective l = false := by simp [isDirective, h]
      have hwords : optionWords? l = none := by simp [optionWords?, h]
      rw [List.find?_cons_of_neg (by simp [hdirective]), ih, List.filterMap_cons_none hwords]
    | some args =>
      have hdirective : isDirective l = true := by simp [isDirective, h]
      have hwords : optionWords? l = some (words args) := by simp [optionWords?, h]
      rw [List.find?_cons_of_pos hdirective, Option.bind_some, parse?_eq, hwords,
        List.filterMap_cons_some hwords, List.head?_cons]

theorem find?_eq (text : List Char) : find? text = (optionLines text).head?.bind overrides? :=
  bind_find? (lines text)

theorem optionLines_eq_codeLines (text : List Char) :
    optionLines text = (codeLines text).filterMap optionWords? := by
  have hlines : optionLines text = (segments text).filterMap optionWords? := by
    rw [optionLines, lines, List.filterMap_map]
    exact List.filterMap_congr fun t _ => optionWords?_lineOf t
  have hcode : (codeLines text).filterMap optionWords? =
      ((segments text).map codeOf).filterMap optionWords? := by
    rw [codeLines_eq_filter, List.filterMap_filter]
    refine List.filterMap_congr fun t _ => ?_
    cases t <;> rfl
  rw [hlines, hcode, List.filterMap_map]
  exact List.filterMap_congr fun t _ => (optionWords?_codeOf t).symm

/-- Formatting keeps every directive, in order, whatever the settings are. -/
theorem optionLines_layOut (s : Settings) (text : List Char) :
    optionLines (layOut s text) = optionLines text := by
  rw [optionLines_eq_codeLines, optionLines_eq_codeLines]
  cases hs : s.trimExtraSpaces with
  | false => rw [codeLines_layOut_of_not_trim hs]
  | true =>
    rw [codeLines_layOut_of_trim hs, List.filterMap_map]
    exact List.filterMap_congr fun l _ => optionWords?_collapse l

/-- A formatted script is read under the settings that the script was formatted under. -/
theorem adjust_layOut (s s' : Settings) (text : List Char) :
    adjust s (layOut s' text) = adjust s text := by
  rw [adjust, adjust, find?_eq, find?_eq, optionLines_layOut]

end Directive
end HotkeyScript
