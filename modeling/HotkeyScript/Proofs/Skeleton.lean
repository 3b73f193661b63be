import HotkeyScript.Line.Skeleton
import HotkeyScript.Proofs.Blanks
import Mathlib.Data.List.Find

/-!
# What a skeleton depends on

The skeleton of a line does not change with the blanks in front of the line, and collapsing the
runs of spaces of a line collapses its skeleton. So neither changes the brackets that are counted
nor the first character of the skeleton.
-/

namespace HotkeyScript
namespace Scan

open Spacing

/-- The characters that code keeps and that leave a scan in code. -/
def isPlain (c : Char) : Bool := c != '"' && c != '`' && c != ';'

theorem next_code_of_isPlain {c : Char} (h : isPlain c = true) :
    State.code.next c = (.code, .kept) := by
  simp only [isPlain, Bool.and_eq_true, bne_iff_ne, ne_eq] at h
  unfold State.next
  split <;> simp_all

theorem kept_code_of_isPlain {s : List Char} (h : ∀ c ∈ s, isPlain c = true) :
    kept .code s = s := by
  induction s with
  | nil => rfl
  | cons c s ih =>
    have hc := next_code_of_isPlain (h c List.mem_cons_self)
    have hs := ih fun d hd => h d (List.mem_cons_of_mem c hd)
    simp [kept, hc, hs]

theorem after_code_of_isPlain {s : List Char} (h : ∀ c ∈ s, isPlain c = true) :
    State.code.after s = .code := by
  induction s with
  | nil => rfl
  | cons c s ih =>
    rw [after_cons, next_code_of_isPlain (h c List.mem_cons_self)]
    exact ih fun d hd => h d (List.mem_cons_of_mem c hd)

theorem isPlain_of_isBlank {c : Char} (h : Text.isBlank c = true) : isPlain c = true := by
  rw [isPlain, Bool.and_eq_true, Bool.and_eq_true, bne_iff_ne, bne_iff_ne, bne_iff_ne]
  refine ⟨⟨?_, ?_⟩, ?_⟩ <;> rintro rfl <;> revert h <;> decide

theorem next_code (c : Char) :
    State.code.next c = (.comment, .dropped) ∨ ∃ p, State.code.next c = (p, .kept) := by
  unfold State.next
  split <;> simp_all

theorem mem_head?_of_kept_code {s : List Char} {c : Char} (h : c ∈ (kept .code s).head?) :
    c ∈ s.head? := by
  cases s with
  | nil => simp at h
  | cons d s =>
    rcases next_code d with hd | ⟨p, hd⟩
    · simp [kept, hd] at h
    · simpa [kept, hd] using h

theorem next_space (q : State) :
    q.next ' ' = (.code, .kept) ∨ ∃ p, q.next ' ' = (p, .dropped) := by
  cases q with
  | code => exact .inl rfl
  | codeEscaped => exact .inl rfl
  | string => exact .inr ⟨_, rfl⟩
  | stringEscaped => exact .inr ⟨_, rfl⟩
  | comment => exact .inr ⟨_, rfl⟩

/-- Scanning and collapsing can be done in either order. A run of spaces may begin with an escaped
one, but it is kept as a whole or dropped as a whole. -/
theorem kept_collapse (q : State) (s : List Char) : kept q (collapse s) = collapse (kept q s) := by
  induction s using collapse_induction generalizing q with
  | nil => rfl
  | run s ih =>
    rw [collapse_space_space, ih q]
    cases q with
    | code => exact (collapse_space_space _).symm
    | codeEscaped => exact (collapse_space_space _).symm
    | string => rfl
    | stringEscaped => rfl
    | comment => rfl
  | keep c s hc ih =>
    rw [collapse_cons_of_not hc]
    rcases hq : q.next c with ⟨p, _ | _⟩
    · have hkeep : ¬(c = ' ' ∧ (kept p s).head? = some ' ') := by
        rintro ⟨rfl, hh⟩
        rcases next_space q with hn | ⟨p', hn⟩
        · obtain rfl : p = .code := by simp_all
          exact hc ⟨rfl, mem_head?_of_kept_code hh⟩
        · simp_all
      simp only [kept, hq]
      rw [ih p, collapse_cons_of_not hkeep]
    · simp only [kept, hq]
      exact ih p

end Scan

namespace Line

open Text Spacing Scan

def blankCodes : List Nat :=
  [0x09, 0x0A, 0x0B, 0x0C, 0x0D, 0x20, 0x85, 0xA0, 0x1680, 0x2000, 0x2001, 0x2002, 0x2003, 0x2004,
    0x2005, 0x2006, 0x2007, 0x2008, 0x2009, 0x200A, 0x2028, 0x2029, 0x202F, 0x205F, 0x3000]

theorem forall_of_blankCodes {P : Char → Prop} (h : ∀ n ∈ blankCodes, P (Char.ofNat n)) {c : Char}
    (hc : isBlank c = true) : P c := by
  have hcode : c.toNat ∈ blankCodes := by
    simp only [isBlank, Bool.or_eq_true, Bool.and_eq_true, decide_eq_true_eq, beq_iff_eq] at hc
    simp only [blankCodes, List.mem_cons, List.not_mem_nil, or_false]
    omega
  have hP := h c.toNat hcode
  rwa [Char.ofNat_toNat] at hP

theorem isTokenChar_of_isBlank {c : Char} (h : isBlank c = true) : isTokenChar c = false := by
  have hall : ∀ n ∈ blankCodes, isTokenChar (Char.ofNat n) = false := by decide +kernel
  exact forall_of_blankCodes (P := fun c => isTokenChar c = false) hall h

theorem isBlank_of_isTokenChar {c : Char} (h : isTokenChar c = true) : isBlank c = false := by
  by_contra hb
  rw [isTokenChar_of_isBlank (by simpa using hb)] at h
  exact Bool.noConfusion h

theorem isPlain_of_isTokenChar {c : Char} (h : isTokenChar c = true) : isPlain c = true := by
  rw [isPlain, Bool.and_eq_true, Bool.and_eq_true, bne_iff_ne, bne_iff_ne, bne_iff_ne]
  refine ⟨⟨?_, ?_⟩, ?_⟩ <;> rintro rfl <;> revert h <;> decide

theorem kept_code_eq_append (s : List Char) :
    kept .code s = s.takeWhile isBlank ++ kept .code (trimStart s) := by
  have hw : ∀ c ∈ s.takeWhile isBlank, isPlain c = true := fun c hc =>
    isPlain_of_isBlank (List.mem_takeWhile_imp hc)
  calc kept .code s = kept .code (s.takeWhile isBlank ++ trimStart s) := by
        rw [takeWhile_append_trimStart]
    _ = s.takeWhile isBlank ++ kept .code (trimStart s) := by
        rw [kept_append, kept_code_of_isPlain hw, after_code_of_isPlain hw]

@[simp] theorem scanned_trimStart (s : List Char) : scanned (trimStart s) = scanned s := by
  have hw : ∀ c ∈ s.takeWhile isBlank, isBlank c = true := fun c hc => List.mem_takeWhile_imp hc
  rw [scanned, scanned, kept_code_eq_append s, trim, trim, trimStart_append_of_blank hw]

@[simp] theorem firstToken?_trimStart (s : List Char) :
    firstToken? (trimStart s) = firstToken? s := by
  rw [firstToken?, firstToken?, trimStart_trimStart]

@[simp] theorem kind_trimStart (s : List Char) : kind (trimStart s) = kind s := by
  rw [kind, kind, firstToken?_trimStart]

@[simp] theorem skeleton_trimStart (s : List Char) : skeleton (trimStart s) = skeleton s := by
  rw [skeleton, skeleton, kind_trimStart, firstToken?_trimStart, scanned_trimStart]

@[simp] theorem opensComment_trimStart (s : List Char) :
    opensComment (trimStart s) = opensComment s := by
  rw [opensComment, opensComment, trimStart_trimStart]

@[simp] theorem closesComment_trimStart (s : List Char) :
    closesComment (trimStart s) = closesComment s := by
  rw [closesComment, closesComment, trimStart_trimStart]

theorem startsArguments_eq_any (tail : List Char) :
    startsArguments tail = tail.head?.any fun c => c == ',' || isBlank c := by
  cases tail <;> rfl

theorem skeleton_of_command {s token tail : List Char} (hk : kind s = .command)
    (ht : firstToken? s = some (token, tail)) : skeleton s = token := by
  rw [skeleton, hk, ht]

theorem skeleton_of_ne_command {s : List Char} (hk : kind s ≠ .command) :
    skeleton s = scanned s := by
  unfold skeleton
  split
  · next h _ => exact absurd h hk
  · rfl

theorem exists_firstToken_of_command {s : List Char} (hk : kind s = .command) :
    ∃ token tail, firstToken? s = some (token, tail) := by
  unfold kind at hk
  split at hk
  · exact absurd hk (by decide)
  · next token tail h => exact ⟨token, tail, h⟩

def headToken (s : List Char) : List Char := (trimStart s).takeWhile isTokenChar

def afterToken (s : List Char) : List Char := (trimStart s).dropWhile isTokenChar

theorem headToken_append_afterToken (s : List Char) : headToken s ++ afterToken s = trimStart s :=
  List.takeWhile_append_dropWhile

theorem isTokenChar_of_mem_headToken {s : List Char} {c : Char} (h : c ∈ headToken s) :
    isTokenChar c = true :=
  List.mem_takeWhile_imp h

theorem firstToken?_of_notMem {s : List Char} (hn : '\n' ∉ s) :
    firstToken? s = if headToken s = [] then none else some (headToken s, afterToken s) := by
  have htail : '\n' ∉ afterToken s := fun h =>
    hn (List.dropWhile_subset isBlank (List.dropWhile_subset isTokenChar h))
  change (if headToken s = [] ∨ '\n' ∈ afterToken s then none
    else some (headToken s, afterToken s)) = _
  simp only [htail, or_false]

/-- The first token of a line is a command name if anything but blanks follows it. -/
def invokes (s : List Char) : Bool :=
  headToken s != [] && (startsArguments (afterToken s) &&
    (!isKeyword (headToken s) && (assignment? (afterToken s)).isNone))

theorem head?_ne_paren_of_startsArguments {tail : List Char} (h : startsArguments tail = true) :
    tail.head? ≠ some '(' := by
  rw [startsArguments_eq_any] at h
  intro hp
  rw [hp] at h
  exact absurd h (by decide)

theorem kind_eq_command_iff {s : List Char} (hn : '\n' ∉ s) :
    kind s = .command ↔ invokes s = true ∧ trimEnd (afterToken s) ≠ [] := by
  unfold kind invokes
  rw [firstToken?_of_notMem hn]
  by_cases ht : headToken s = []
  · simp [ht]
  · simp only [ht, if_false]
    by_cases hs : startsArguments (afterToken s) = true
    · simp only [head?_ne_paren_of_startsArguments hs, if_false]
      by_cases he : trimEnd (afterToken s) = []
      · simp [he]
      · cases isKeyword (headToken s) <;> cases assignment? (afterToken s) <;> simp [he, hs, ht]
    · rw [Bool.not_eq_true] at hs
      simp only [hs, Bool.false_and, Bool.and_false, Bool.false_eq_true, false_and, iff_false]
      split
      · exact fun h => Kind.noConfusion h
      · split <;> exact fun h => by simp at h

theorem scanned_of_blank_tail {s : List Char} (h : trimEnd (afterToken s) = []) :
    scanned s = headToken s := by
  have htail : ∀ c ∈ afterToken s, isBlank c = true := trimEnd_eq_nil_iff.mp h
  have hplain : ∀ c ∈ trimStart s, isPlain c = true := by
    intro c hc
    rw [← headToken_append_afterToken, List.mem_append] at hc
    rcases hc with hc | hc
    · exact isPlain_of_isTokenChar (isTokenChar_of_mem_headToken hc)
    · exact isPlain_of_isBlank (htail c hc)
  have hlast : ∀ c ∈ (headToken s).getLast?, isBlank c = false := fun c hc =>
    isBlank_of_isTokenChar (isTokenChar_of_mem_headToken (List.mem_of_getLast? hc))
  rw [← scanned_trimStart, scanned, kept_code_of_isPlain hplain, trim, trimStart_trimStart,
    ← headToken_append_afterToken, trimEnd, dropEndWhile_append _ htail, dropEndWhile_eq_self hlast]

/-- The skeleton of a line is its command name, if it invokes a command, and the scanned line
otherwise. With nothing after the command name the two are the same. -/
theorem skeleton_eq_ite {s : List Char} (hn : '\n' ∉ s) :
    skeleton s = if invokes s = true then headToken s else scanned s := by
  by_cases hk : kind s = .command
  · obtain ⟨hi, -⟩ := (kind_eq_command_iff hn).mp hk
    obtain ⟨token, tail, ht⟩ := exists_firstToken_of_command hk
    have htoken : token = headToken s := by
      rw [firstToken?_of_notMem hn] at ht
      split at ht
      · exact absurd ht (by simp)
      · rw [Option.some.injEq, Prod.mk.injEq] at ht
        exact ht.1.symm
    rw [skeleton_of_command hk ht, if_pos hi, htoken]
  · rw [skeleton_of_ne_command hk]
    split
    · next hi =>
      have htail : trimEnd (afterToken s) = [] := by
        by_contra hne
        exact hk ((kind_eq_command_iff hn).mpr ⟨hi, hne⟩)
      exact scanned_of_blank_tail htail
    · rfl

theorem scanned_sublist (l : List Char) : (scanned l).Sublist l := by
  obtain ⟨e, he, -⟩ := exists_dropEndWhile_append isBlank (trimStart (Scan.kept .code l))
  have htrim : (scanned l).Sublist (trimStart (Scan.kept .code l)) := by
    have happ := List.sublist_append_left (scanned l) e
    exact he ▸ happ
  exact htrim.trans ((List.dropWhile_sublist _).trans (Scan.kept_sublist _ _))

theorem skeleton_sublist (l : List Char) : (skeleton l).Sublist l := by
  by_cases hk : kind l = .command
  · obtain ⟨token, tail, ht⟩ := exists_firstToken_of_command hk
    rw [skeleton_of_command hk ht]
    simp only [firstToken?] at ht
    split at ht
    · cases ht
    · cases ht
      exact (List.takeWhile_sublist _).trans (List.dropWhile_sublist _)
  · rw [skeleton_of_ne_command hk]
    exact scanned_sublist l

theorem scanned_collapse (s : List Char) : scanned (collapse s) = collapse (scanned s) := by
  rw [scanned, kept_collapse, trim_collapse, scanned]

theorem firstToken?_collapse (s : List Char) :
    firstToken? (collapse s) = (firstToken? s).map fun (token, tail) => (token, collapse tail) := by
  have hsp : isTokenChar ' ' = false := isTokenChar_of_isBlank isBlank_space
  dsimp only [firstToken?]
  rw [trimStart_collapse, takeWhile_collapse hsp, dropWhile_collapse hsp]
  simp only [mem_collapse]
  split <;> rfl

theorem assignment?_collapse (tail : List Char) :
    assignment? (collapse tail) = assignment? tail := by
  have hops : ∀ p ∈ assignmentOperators.map String.toList, ' ' ∉ p := by decide
  unfold assignment?
  rw [trimStart_collapse]
  refine List.find?_congr fun p hp => ?_
  rw [Bool.eq_iff_iff, List.isPrefixOf_iff_prefix, List.isPrefixOf_iff_prefix]
  exact prefix_collapse_iff (hops p hp)

theorem kind_collapse (s : List Char) : kind (collapse s) = kind s := by
  unfold kind
  rw [firstToken?_collapse]
  cases firstToken? s with
  | none => rfl
  | some p =>
    obtain ⟨token, tail⟩ := p
    have hend : trimEnd (collapse tail) = [] ↔ trimEnd tail = [] := by
      simp only [trimEnd_eq_nil_iff, mem_collapse]
    simp only [Option.map_some, head?_collapse, hend, startsArguments_eq_any, assignment?_collapse]

theorem skeleton_collapse (s : List Char) : skeleton (collapse s) = collapse (skeleton s) := by
  by_cases hk : kind s = .command
  · obtain ⟨token, tail, ht⟩ := exists_firstToken_of_command hk
    have hct : firstToken? (collapse s) = some (token, collapse tail) := by
      rw [firstToken?_collapse, ht]
      rfl
    have hsp : ' ' ∉ token := by
      intro hmem
      have h := (firstToken?_eq_some ht).2.2.2 ' ' hmem
      rw [isTokenChar_of_isBlank isBlank_space] at h
      exact Bool.false_ne_true h
    rw [skeleton_of_command ((kind_collapse s).trans hk) hct, skeleton_of_command hk ht,
      collapse_eq_self_of_notMem hsp]
  · have hck : kind (collapse s) ≠ .command := by rwa [kind_collapse]
    rw [skeleton_of_ne_command hck, skeleton_of_ne_command hk, scanned_collapse]

theorem skeleton_collapseContent (s : List Char) :
    skeleton (collapseContent s) = collapse (skeleton s) := by
  rw [← skeleton_trimStart, trimStart_collapseContent, skeleton_collapse, skeleton_trimStart]

theorem scanned_collapseContent (s : List Char) :
    scanned (collapseContent s) = collapse (scanned s) := by
  rw [← scanned_trimStart, trimStart_collapseContent, scanned_collapse, scanned_trimStart]

theorem isPrefixOf_trimStart_collapseContent {p : List Char} (hp : ' ' ∉ p) (s : List Char) :
    p.isPrefixOf (trimStart (collapseContent s)) = p.isPrefixOf (trimStart s) := by
  rw [trimStart_collapseContent, Bool.eq_iff_iff, List.isPrefixOf_iff_prefix,
    List.isPrefixOf_iff_prefix]
  exact prefix_collapse_iff hp

@[simp] theorem opensComment_collapseContent (s : List Char) :
    opensComment (collapseContent s) = opensComment s :=
  isPrefixOf_trimStart_collapseContent (by decide) s

@[simp] theorem closesComment_collapseContent (s : List Char) :
    closesComment (collapseContent s) = closesComment s :=
  isPrefixOf_trimStart_collapseContent (by decide) s

end Line

namespace Bracket

open Spacing

/-- The balance of what is kept of a line is at most the length of the line. -/
theorem balance_le_length (opening closing : Char) {s l : List Char} (h : s.Sublist l) :
    balance opening closing s ≤ l.length := by
  have hcount : s.count opening ≤ l.length := List.count_le_length.trans h.length_le
  unfold balance
  omega

theorem balance_collapse {a b : Char} (ha : a ≠ ' ') (hb : b ≠ ' ') (s : List Char) :
    balance a b (collapse s) = balance a b s := by
  rw [balance, balance, count_collapse ha, count_collapse hb]

@[simp] theorem parens_collapse (s : List Char) : parens (collapse s) = parens s :=
  balance_collapse (by decide) (by decide) s

@[simp] theorem braces_collapse (s : List Char) : braces (collapse s) = braces s :=
  balance_collapse (by decide) (by decide) s

end Bracket

namespace Text

open Spacing

/-- Collapsing neither makes nor breaks an occurrence of a text without spaces. -/
theorem holds_collapse {p : List Char} (hp : ' ' ∉ p) (s : List Char) :
    holds p (collapse s) = holds p s := by
  have hpre : ∀ t, p.isPrefixOf (collapse t) = p.isPrefixOf t := fun t => by
    rw [Bool.eq_iff_iff, List.isPrefixOf_iff_prefix, List.isPrefixOf_iff_prefix]
    exact prefix_collapse_iff hp
  induction s using collapse_induction with
  | nil => rfl
  | run s ih =>
    rw [collapse_space_space, ih]
    cases p with
    | nil => rfl
    | cons a p =>
      have ha : (a == ' ') = false := by
        rw [beq_eq_false_iff_ne]
        rintro rfl
        exact hp List.mem_cons_self
      simp [holds, List.isPrefixOf, ha]
  | keep c s hc ih =>
    have h := hpre (c :: s)
    rw [collapse_cons_of_not hc] at h ⊢
    rw [holds, holds, ih, h]

theorem holds_append_of_notMem {p w : List Char} (hne : p ≠ []) (hw : ∀ c ∈ w, c ∉ p)
    (s : List Char) : holds p (w ++ s) = holds p s := by
  induction w with
  | nil => rfl
  | cons c w ih =>
    obtain ⟨a, p', rfl⟩ := List.exists_cons_of_ne_nil hne
    have hac : (a == c) = false := by
      rw [beq_eq_false_iff_ne]
      rintro rfl
      exact hw a List.mem_cons_self List.mem_cons_self
    rw [List.cons_append, holds, List.isPrefixOf, hac, Bool.false_and, Bool.false_or]
    exact ih fun d hd => hw d (List.mem_cons_of_mem c hd)

theorem holds_collapseContent {p : List Char} (hne : p ≠ []) (hp : ∀ c ∈ p, isIndent c = false)
    (s : List Char) : holds p (collapseContent s) = holds p s := by
  obtain ⟨w, r, rfl, hw, -, h⟩ := exists_indent_append s
  have hwp : ∀ c ∈ w, c ∉ p := fun c hc hcp => by simpa [hw c hc] using hp c hcp
  have hsp : ' ' ∉ p := fun hmem => absurd (hp ' ' hmem) (by decide)
  rw [h, holds_append_of_notMem hne hwp, holds_append_of_notMem hne hwp, holds_collapse hsp]

end Text
end HotkeyScript
