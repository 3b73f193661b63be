import HotkeyScript.Proofs.Skeleton

/-!
# The skeleton of a skeleton

What a scan keeps, a second scan keeps as a whole, and so it does with every beginning of it: an
escape that trimming has cut short and a literal that is never closed read back as themselves. The
scanned line also begins with the token that the line begins with, and what follows that token is no
more of a command's arguments than before. So the skeleton of a line is its own skeleton.
-/

namespace HotkeyScript
namespace Scan

/-- The state in which the characters that a scan from `q` keeps are read again. An escape in a
literal is dropped, so the character behind it is not escaped any more. -/
def State.again : State → State
  | .stringEscaped => .string
  | q => q

theorem again_of_kept {q p : State} {c : Char} (h : q.next c = (p, .kept)) :
    q.again = q ∧ p.again = p := by
  unfold State.next at h
  split at h <;> cases h <;> exact ⟨rfl, rfl⟩

/-- A character is dropped for a comment, or inside a literal or comment that goes on. -/
theorem again_of_dropped {q p : State} {c : Char} (h : q.next c = (p, .dropped)) :
    p = .comment ∨ p.again = q.again := by
  unfold State.next at h
  split at h <;> cases h
  · exact .inl rfl
  all_goals exact .inr rfl

/-- A second scan keeps everything that the first one has kept. -/
theorem kept_again (q : State) (s : List Char) : kept q.again (kept q s) = kept q s := by
  induction s generalizing q with
  | nil => rfl
  | cons c s ih =>
    rcases hq : q.next c with ⟨p, _ | _⟩
    · obtain ⟨hqa, hpa⟩ := again_of_kept hq
      have hp := ih p
      rw [hpa] at hp
      simp only [kept, hq, hqa, hp]
    · simp only [kept, hq]
      rcases again_of_dropped hq with rfl | hpa
      · rw [kept_comment, kept_nil]
      · rw [← hpa]
        exact ih p

theorem kept_of_kept_append {q : State} {s t : List Char} (h : kept q (s ++ t) = s ++ t) :
    kept q s = s := by
  have hs := (kept_sublist q s).length_le
  have ht := (kept_sublist (q.after s) t).length_le
  have hlength := congrArg List.length h
  rw [kept_append, List.length_append, List.length_append] at hlength
  exact (kept_sublist q s).eq_of_length (by omega)

end Scan

namespace Line

open Text Scan

theorem kept_code_scanned (s : List Char) : kept .code (scanned s) = scanned s := by
  have hkept : kept .code (kept .code s) = kept .code s := kept_again .code s
  have hstart : kept .code (trimStart (kept .code s)) = trimStart (kept .code s) := by
    have happ := kept_code_eq_append (kept .code s)
    rw [hkept] at happ
    exact (List.append_cancel_left ((takeWhile_append_trimStart _).trans happ)).symm
  obtain ⟨e, he, -⟩ := exists_dropEndWhile_append isBlank (trimStart (kept .code s))
  rw [he] at hstart
  exact kept_of_kept_append hstart

@[simp] theorem scanned_scanned (s : List Char) : scanned (scanned s) = scanned s := by
  have htrim : trim (scanned s) = scanned s := trim_trim _
  rw [scanned, kept_code_scanned, htrim]

theorem head?_afterToken (s : List Char) : ∀ c ∈ (afterToken s).head?, isTokenChar c = false := by
  intro c hc
  have h := List.head?_dropWhile_not isTokenChar (trimStart s)
  rw [← afterToken, Option.mem_def.mp hc] at h
  simpa using h

def scannedTail (s : List Char) : List Char := trimEnd (kept .code (afterToken s))

theorem mem_head?_of_scannedTail {s : List Char} {c : Char} (h : c ∈ (scannedTail s).head?) :
    c ∈ (afterToken s).head? :=
  mem_head?_of_kept_code (mem_head?_of_trimEnd h)

theorem scanned_eq_append (s : List Char) : scanned s = headToken s ++ scannedTail s := by
  have hplain : ∀ c ∈ headToken s, isPlain c = true := fun c hc =>
    isPlain_of_isTokenChar (isTokenChar_of_mem_headToken hc)
  have hkept : kept .code (trimStart s) = headToken s ++ kept .code (afterToken s) := by
    rw [← headToken_append_afterToken, kept_append, kept_code_of_isPlain hplain,
      after_code_of_isPlain hplain]
  have hhead : ∀ c ∈ (kept .code (trimStart s)).head?, isBlank c = false := fun c hc =>
    head?_trimStart s c (mem_head?_of_kept_code hc)
  have hlast : ∀ c ∈ (headToken s).getLast?, isBlank c = false := fun c hc =>
    isBlank_of_isTokenChar (isTokenChar_of_mem_headToken (List.mem_of_getLast? hc))
  rw [← scanned_trimStart, scanned, trim, trimStart_eq_self hhead, hkept, trimEnd,
    dropEndWhile_append_of_last hlast, scannedTail, trimEnd]

theorem headToken_scanned (s : List Char) : headToken (scanned s) = headToken s := by
  have htoken : ∀ c ∈ headToken s, isTokenChar c = true := fun c hc =>
    isTokenChar_of_mem_headToken hc
  have htail : (scannedTail s).takeWhile isTokenChar = [] := by
    cases h : scannedTail s with
    | nil => rfl
    | cons c r =>
      have hc : c ∈ (scannedTail s).head? := by rw [h, List.head?_cons, Option.mem_some_iff]
      have hnot := head?_afterToken s c (mem_head?_of_scannedTail hc)
      exact List.takeWhile_cons_of_neg (by simp [hnot])
  have hstart : trimStart (scanned s) = scanned s := trimStart_trim _
  rw [headToken, hstart, scanned_eq_append, List.takeWhile_append_of_pos htoken, htail,
    List.append_nil]

theorem afterToken_scanned (s : List Char) : afterToken (scanned s) = scannedTail s := by
  have h : headToken s ++ afterToken (scanned s) = headToken s ++ scannedTail s :=
    calc headToken s ++ afterToken (scanned s)
      _ = headToken (scanned s) ++ afterToken (scanned s) := by rw [headToken_scanned]
      _ = trimStart (scanned s) := headToken_append_afterToken _
      _ = scanned s := trimStart_trim _
      _ = headToken s ++ scannedTail s := scanned_eq_append s
  exact List.append_cancel_left h

theorem startsArguments_of_scannedTail {s : List Char}
    (h : startsArguments (scannedTail s) = true) : startsArguments (afterToken s) = true := by
  rw [startsArguments_eq_any, Option.any_eq_true] at h ⊢
  obtain ⟨c, hc, hstarts⟩ := h
  exact ⟨c, mem_head?_of_scannedTail hc, hstarts⟩

theorem operators_plain : ∀ p ∈ assignmentOperators.map String.toList,
    p ≠ [] ∧ p.all (fun c => isPlain c && !isBlank c) = true := by
  decide

theorem prefix_trimStart_scannedTail {p s : List Char} (hne : p ≠ [])
    (hp : ∀ c ∈ p, isPlain c = true ∧ isBlank c = false) (h : p <+: trimStart (afterToken s)) :
    p <+: trimStart (scannedTail s) := by
  obtain ⟨r, hr⟩ := h
  have hkept : kept .code (p ++ r) = p ++ kept .code r := by
    have hplain : ∀ c ∈ p, isPlain c = true := fun c hc => (hp c hc).1
    rw [kept_append, kept_code_of_isPlain hplain, after_code_of_isPlain hplain]
  have hlast : ∀ c ∈ ((afterToken s).takeWhile isBlank ++ p).getLast?, isBlank c = false := by
    intro c hc
    rw [List.getLast?_append_of_ne_nil _ hne] at hc
    exact (hp c (List.mem_of_getLast? hc)).2
  have htail : scannedTail s =
      (afterToken s).takeWhile isBlank ++ (p ++ trimEnd (kept .code r)) := by
    rw [scannedTail, kept_code_eq_append, ← hr, hkept, ← List.append_assoc, trimEnd,
      dropEndWhile_append_of_last hlast, List.append_assoc, trimEnd]
  have hblank : ∀ c ∈ (afterToken s).takeWhile isBlank, isBlank c = true := fun c hc =>
    List.mem_takeWhile_imp hc
  have hhead : ∀ c ∈ (p ++ trimEnd (kept .code r)).head?, isBlank c = false := by
    intro c hc
    rw [List.head?_append_of_ne_nil _ hne] at hc
    exact (hp c (List.mem_of_mem_head? hc)).2
  rw [htail, trimStart_append_of_blank hblank, trimStart_eq_self hhead]
  exact List.prefix_append _ _

theorem assignment?_afterToken {s : List Char} (h : assignment? (scannedTail s) = none) :
    assignment? (afterToken s) = none := by
  unfold assignment? at h ⊢
  rw [List.find?_eq_none] at h ⊢
  intro p hp hprefix
  obtain ⟨hne, hplain⟩ := operators_plain p hp
  simp only [List.all_eq_true, Bool.and_eq_true, Bool.not_eq_true_eq_eq_false] at hplain
  apply h p hp
  rw [List.isPrefixOf_iff_prefix] at hprefix ⊢
  exact prefix_trimStart_scannedTail hne hplain hprefix

/-- A scan makes no command of a line that invokes none. -/
theorem invokes_of_scanned {s : List Char} (h : invokes (scanned s) = true) : invokes s = true := by
  rw [invokes, headToken_scanned, afterToken_scanned] at h
  rw [invokes]
  simp only [Bool.and_eq_true, Option.isNone_iff_eq_none] at h ⊢
  obtain ⟨htoken, hstarts, hkeyword, hassignment⟩ := h
  exact ⟨htoken, startsArguments_of_scannedTail hstarts, hkeyword,
    assignment?_afterToken hassignment⟩

theorem skeleton_of_token {s : List Char} (h : ∀ c ∈ s, isTokenChar c = true) : skeleton s = s := by
  have hfeed : '\n' ∉ s := fun hmem => absurd (h _ hmem) (by decide)
  have hstart : trimStart s = s := trimStart_eq_self fun c hc =>
    isBlank_of_isTokenChar (h c (List.mem_of_mem_head? hc))
  have htoken : headToken s = s := by
    rw [headToken, hstart]
    exact List.takeWhile_eq_self_iff.mpr h
  have htail : trimEnd (afterToken s) = [] := by
    rw [afterToken, hstart, List.dropWhile_eq_nil_iff.mpr h]
    rfl
  rw [skeleton_eq_ite hfeed, scanned_of_blank_tail htail, ite_self, htoken]

/-- Taking the skeleton is idempotent. A command name has nothing behind it that could be cut, and
any other skeleton is read back as it is. -/
theorem skeleton_idempotent {s : List Char} (hn : '\n' ∉ s) :
    skeleton (skeleton s) = skeleton s := by
  rw [skeleton_eq_ite hn]
  split
  · exact skeleton_of_token fun c hc => isTokenChar_of_mem_headToken hc
  · next hi =>
    have hfeed : '\n' ∉ scanned s := fun hmem => hn ((scanned_sublist s).subset hmem)
    rw [skeleton_eq_ite hfeed, if_neg (mt invokes_of_scanned hi), scanned_scanned]

/-- An assignment whose literal holds an escaped quote and a semicolon, and whose last escape is of
the blank in front of a comment. -/
def escapedLine : List Char := "\tx := f(\"a;`\"\", b` ; c".toList

theorem skeleton_idempotent_escapedLine :
    skeleton escapedLine = "x := f(\"\", b`".toList ∧
      skeleton (skeleton escapedLine) = skeleton escapedLine := by
  have hn : '\n' ∉ escapedLine := by decide
  exact ⟨by decide +kernel, skeleton_idempotent hn⟩

end Line
end HotkeyScript
