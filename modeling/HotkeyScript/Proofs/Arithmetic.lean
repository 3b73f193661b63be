import HotkeyScript.Proofs.Counters
import HotkeyScript.Proofs.Passes
import HotkeyScript.Run.Notice

/-!
# Room in the words

Depths and widths are words of 64 bits, and the balance of a line is computed in signed ones. Here a
document is laid out in an arithmetic that is a parameter: every sum, product and moved counter goes
through it. Numbers without bounds are one arithmetic, words that wrap around are another, and a
third refuses whatever does not fit. A script that is not too large has too few brackets and lines
for the three to differ: every counter is bounded by the brackets read so far.
-/

namespace HotkeyScript

open Text Line

/-- What becomes of a result that has been computed exactly. It is in a monad, so that an arithmetic
can refuse it. -/
structure Arithmetic (M : Type → Type) where
  /-- The sum or the product of counters. -/
  unsigned : Nat → M Nat
  /-- The sum of signed amounts. -/
  signed : Int → M Int
  /-- A counter that a signed amount has moved. -/
  moved : Nat → M Nat

def FitsSigned (d : Int) : Prop := -2 ^ 63 ≤ d ∧ d < 2 ^ 63

instance (d : Int) : Decidable (FitsSigned d) := inferInstanceAs (Decidable (_ ∧ _))

namespace Arithmetic

def exact : Arithmetic Id where
  unsigned n := pure n
  signed d := pure d
  moved n := pure n

/-- Words of 64 bits. Sums and products wrap around, a moved counter stops at the largest word. -/
def words : Arithmetic Id where
  unsigned n := pure (UInt64.ofNat n).toNat
  signed d := pure (Int64.ofInt d).toInt
  moved n := pure (min n (UInt64.size - 1))

/-- Nothing, where a sum or a product is not below `2 ^ 63`, a signed amount does not fit, or a
moved counter would be stopped at the largest word. -/
def checked : Arithmetic Option where
  unsigned n := if n < 2 ^ 63 then some n else none
  signed d := if FitsSigned d then some d else none
  moved n := if n < UInt64.size then some n else none

section Layout

variable {M : Type → Type} [Monad M] (A : Arithmetic M)

def balance (opening closing : Char) (s : List Char) : M Int :=
  s.foldlM (fun n c =>
    if c = opening then A.signed (n + 1) else if c = closing then A.signed (n - 1) else pure n) 0

def shift (n : Nat) (d : Int) : M Nat := A.moved (n + d).toNat

def indentation (style : Style) (depth : Nat) : M (List Char) :=
  if style.useSpaces then do
    return List.replicate (← A.unsigned (depth * style.tabWidth.toNat)) ' '
  else return List.replicate depth '\t'

def indent (style : Style) (depth : Nat) (s : List Char) : M (List Char) :=
  if s = [] then return [] else do return (← A.indentation style depth) ++ s

structure Counts where
  depth : Nat := 0
  continuation : Nat := 0
  inComment : Bool := false
  deriving DecidableEq, Repr

def markDepth (q : Counts) : M Nat :=
  if 0 < q.continuation then A.unsigned (q.depth + 1) else return q.depth

def commentStep (style : Style) (q : Counts) (raw : List Char) : M (Counts × List Char) :=
  if closesComment raw then do
    let depth ← A.markDepth q
    return ({ q with inComment := false }, ← A.indent style depth (trimStart raw))
  else return ({ q with inComment := !holds ['*', '/'] raw }, raw)

def openingStep (style : Style) (q : Counts) (raw : List Char) : M (Counts × List Char) := do
  let body := trimStart raw
  let depth ← A.markDepth q
  return ({ q with inComment := !holds ['*', '/'] (body.drop 2) }, ← A.indent style depth body)

def continuedLine (style : Style) (depth : Nat) (raw : List Char) : M (List Char) :=
  if style.keepContinuation then
    if trimStart raw = [] then A.indentation style depth else return raw
  else A.indent style depth (trimStart raw)

def continuedStep (style : Style) (q : Counts) (raw : List Char) : M (Counts × List Char) := do
  let delta ← A.balance '{' '}' (scanned raw)
  let line ← A.continuedLine style (← A.unsigned (q.depth + 1)) raw
  let depth ← A.shift q.depth delta
  let continuation ← A.shift q.continuation (← A.balance '(' ')' (scanned raw))
  return ({ q with depth, continuation }, line)

def openDepth (depth : Nat) (skeleton : List Char) : M (Nat × Int) := do
  let delta ← A.balance '{' '}' skeleton
  if skeleton.head? = some '}' ∧ 0 < depth then return (depth - 1, ← A.signed (delta + 1))
  else return (depth, delta)

def plainStep (style : Style) (q : Counts) (raw : List Char) : M (Counts × List Char) := do
  let (depth, delta) ← A.openDepth q.depth (skeleton raw)
  let line ← A.indent style depth (trimStart raw)
  let depth ← A.shift depth delta
  let continuation ← A.shift q.continuation (← A.balance '(' ')' (skeleton raw))
  return ({ q with depth, continuation }, line)

def step (style : Style) (q : Counts) (raw : List Char) : M (Counts × List Char) :=
  if q.inComment then A.commentStep style q raw
  else if opensComment raw then A.openingStep style q raw
  else if 0 < q.continuation then A.continuedStep style q raw
  else A.plainStep style q raw

def render (style : Style) : Counts → List (List Char) → M (List (List Char))
  | _, [] => return []
  | q, raw :: rest => do
    let (q, line) ← A.step style q raw
    return line :: (← render style q rest)

def reindent (style : Style) (text : List Char) : M (List Char) := do
  let (lines, terminated) := Reflow.rawLines text
  let eol := Reflow.terminator text
  return eol.intercalate (← A.render style {} lines) ++ if terminated then eol else []

def keep (limit : Nat) : (seen : Bool) → (run : Nat) → List (List Char) → M (List (List Char))
  | _, _, [] => return []
  | seen, run, t :: ts =>
    if BlankRun.isBlankLine t then
      if seen then do
        let run ← A.unsigned (run + 1)
        let kept ← keep limit seen run ts
        return if run ≤ limit then t :: kept else kept
      else keep limit seen run ts
    else do return t :: (← keep limit true 0 ts)

def limit (n : Int32) (text : List Char) : M (List Char) :=
  if n < 0 then return text
  else do return (← A.keep n.toInt.toNat false 0 (segments text)).flatten

def indented (s : Settings) (text : List Char) : M (List Char) :=
  if s.imposeIndent then A.reindent s.style text else return text

def layOut (s : Settings) (text : List Char) : M (List Char) := do
  let limited ← A.limit s.maxBlankLines (← A.indented s text)
  return if s.trimExtraSpaces then Document.collapseSpaces limited else limited

end Layout

/-- The arithmetic leaves alone what the words of 64 bits have room for. -/
structure IsFaithful {M : Type → Type} [Monad M] (A : Arithmetic M) : Prop where
  unsigned {n : Nat} (h : n < 2 ^ 63) : A.unsigned n = pure n
  signed {d : Int} (h : FitsSigned d) : A.signed d = pure d
  moved {n : Nat} (h : n < UInt64.size) : A.moved n = pure n

theorem isFaithful_exact : exact.IsFaithful := ⟨fun _ => rfl, fun _ => rfl, fun _ => rfl⟩

theorem isFaithful_words : words.IsFaithful where
  unsigned {n} h := by
    have hn : (UInt64.ofNat n).toNat = n := UInt64.toNat_ofNat_of_lt' (h.trans (by decide))
    exact congrArg pure hn
  signed {d} h := by
    have hd : (Int64.ofInt d).toInt = d := Int64.toInt_ofInt_of_le h.1 h.2
    exact congrArg pure hd
  moved {n} h := by
    have hn : min n (UInt64.size - 1) = n := by omega
    exact congrArg pure hn

theorem isFaithful_checked : checked.IsFaithful :=
  ⟨fun h => if_pos h, fun h => if_pos h, fun h => if_pos h⟩

def Counts.of (q : Reflow.State) : Counts := ⟨q.depth.toNat, q.continuation.toNat, q.inComment⟩

/-- The words of a reflow have room for all that a step computes: the balances of the part of the
line that counts, also on the way through it, the amount that moves the depth with the level that a
closing brace stands out, one level more, its columns, and the moved counters. -/
structure Room (style : Style) (q : Reflow.State) (raw : List Char) : Prop where
  braces {s : List Char} (h : s <+: Reflow.countedPart q raw) : FitsSigned (Bracket.braces s)
  parens {s : List Char} (h : s <+: Reflow.countedPart q raw) : FitsSigned (Bracket.parens s)
  delta : FitsSigned (Bracket.braces (Reflow.countedPart q raw) + 1)
  level : q.depth.toNat + 1 < 2 ^ 63
  columns : (q.depth.toNat + 1) * style.tabWidth.toNat < 2 ^ 63
  depth : (q.depth.toNat + Bracket.braces (Reflow.countedPart q raw)).toNat < UInt64.size
  continuation :
    (q.continuation.toNat + Bracket.parens (Reflow.countedPart q raw)).toNat < UInt64.size

namespace Room

variable {style : Style} {q : Reflow.State} {raw : List Char}

theorem toNat_level (h : Room style q raw) : (q.depth + 1).toNat = q.depth.toNat + 1 := by
  have hone : (1 : UInt64).toNat = 1 := rfl
  have hlevel := h.level
  rw [UInt64.toNat_add, hone]
  omega

theorem columns_of_le (h : Room style q raw) {d : UInt64} (hd : d.toNat ≤ q.depth.toNat + 1) :
    d.toNat * style.tabWidth.toNat < 2 ^ 63 :=
  Nat.lt_of_le_of_lt (Nat.mul_le_mul_right _ hd) h.columns

end Room

theorem Counts.continued_iff (q : Reflow.State) :
    0 < (Counts.of q).continuation ↔ q.isContinued = true := by
  rw [Reflow.State.isContinued, decide_eq_true_eq, UInt64.lt_iff_toNat_lt]
  rfl

theorem toNat_sub_one {n : UInt64} (h : 0 < n) : (n - 1).toNat = n.toNat - 1 :=
  UInt64.toNat_sub_of_le _ _ (UInt64.le_iff_toNat_le.mpr (UInt64.lt_iff_toNat_lt.mp h))

theorem toNat_openDepth_le (depth : UInt64) (s : List Char) :
    (Reflow.openDepth depth s).1.toNat ≤ depth.toNat := by
  unfold Reflow.openDepth
  split
  · next hs =>
    rw [toNat_sub_one hs.2]
    exact Nat.sub_le _ _
  · exact Nat.le_refl _

/-- One level out and one more to go is no change. -/
theorem openDepth_sum (depth : UInt64) (s : List Char) :
    (Reflow.openDepth depth s).1.toNat + (Reflow.openDepth depth s).2 =
      depth.toNat + Bracket.braces s := by
  unfold Reflow.openDepth
  split
  · next hs =>
    have hpos : 0 < depth.toNat := UInt64.lt_iff_toNat_lt.mp hs.2
    rw [toNat_sub_one hs.2]
    omega
  · rfl

section Faithful

variable {M : Type → Type} [Monad M] {A : Arithmetic M} (hA : A.IsFaithful)
include hA

theorem shift_eq {n : UInt64} {d : Int} (h : (n.toNat + d).toNat < UInt64.size) :
    A.shift n.toNat d = pure (Reflow.shift n d).toNat := by
  have hshift : (Reflow.shift n d).toNat = (n.toNat + d).toNat := by
    rw [Reflow.toNat_shift]
    omega
  rw [shift, hA.moved h, hshift]

variable [LawfulMonad M]

theorem balance_eq {opening closing : Char} (hne : opening ≠ closing) {s : List Char}
    (h : ∀ t, t <+: s → FitsSigned (Bracket.balance opening closing t)) :
    A.balance opening closing s = pure (Bracket.balance opening closing s) := by
  induction s using List.reverseRecOn with
  | nil => rfl
  | append_singleton s c ih =>
    have hs := ih fun t ht => h t (ht.trans (List.prefix_append s [c]))
    have hc := h (s ++ [c]) List.prefix_rfl
    rw [Bracket.balance_append] at hc
    have hfold : A.balance opening closing (s ++ [c]) = A.balance opening closing s >>= fun n =>
        if c = opening then A.signed (n + 1) else if c = closing then A.signed (n - 1)
        else pure n := by
      simp [balance, List.foldlM_append]
    rw [hfold, hs, pure_bind, Bracket.balance_append]
    by_cases ho : c = opening
    · have hone : Bracket.balance opening closing [c] = 1 := by simp [Bracket.balance, ho, hne]
      rw [hone] at hc ⊢
      rw [if_pos ho, hA.signed hc]
    · by_cases hcl : c = closing
      · have hone : Bracket.balance opening closing [c] = -1 := by
          simp [Bracket.balance, hcl, Ne.symm hne]
        rw [hone] at hc ⊢
        rw [if_neg ho, if_pos hcl]
        exact hA.signed hc
      · have hzero : Bracket.balance opening closing [c] = 0 := by
          simp [Bracket.balance, ho, hcl]
        rw [if_neg ho, if_neg hcl, hzero, add_zero]

theorem indentation_eq {style : Style} {depth : UInt64}
    (h : depth.toNat * style.tabWidth.toNat < 2 ^ 63) :
    A.indentation style depth.toNat = pure (style.indentation depth) := by
  unfold indentation Style.indentation
  split
  · have hmul : (depth * style.tabWidth).toNat = depth.toNat * style.tabWidth.toNat := by
      rw [UInt64.toNat_mul]
      omega
    rw [hA.unsigned h, pure_bind, hmul]
  · rfl

theorem indent_eq {style : Style} {depth : UInt64}
    (h : depth.toNat * style.tabWidth.toNat < 2 ^ 63) (s : List Char) :
    A.indent style depth.toNat s = pure (style.indent depth s) := by
  unfold indent Style.indent
  split
  · rfl
  · rw [indentation_eq hA h, pure_bind]

section Steps

variable {style : Style} {q : Reflow.State} {raw : List Char} (h : Room style q raw)
include h

omit [LawfulMonad M] in
theorem markDepth_eq : A.markDepth (.of q) = pure q.markDepth.toNat := by
  unfold markDepth Reflow.State.markDepth
  simp only [Counts.continued_iff]
  split
  · rw [h.toNat_level]
    exact hA.unsigned h.level
  · rfl

theorem indent_markDepth_eq (s : List Char) :
    A.indent style q.markDepth.toNat s = pure (style.indent q.markDepth s) := by
  apply indent_eq hA
  apply h.columns_of_le
  unfold Reflow.State.markDepth
  split
  · exact h.toNat_level.le
  · exact Nat.le_succ _

theorem commentStep_eq :
    A.commentStep style (.of q) raw =
      pure (.of (Reflow.commentStep style q raw).1, (Reflow.commentStep style q raw).2) := by
  unfold commentStep Reflow.commentStep
  split
  · rw [markDepth_eq hA h, pure_bind, indent_markDepth_eq hA h, pure_bind]
    rfl
  · rfl

theorem openingStep_eq :
    A.openingStep style (.of q) raw =
      pure (.of (Reflow.openingStep style q raw).1, (Reflow.openingStep style q raw).2) := by
  rw [openingStep, markDepth_eq hA h, pure_bind, indent_markDepth_eq hA h, pure_bind]
  rfl

theorem continuedLine_eq :
    A.continuedLine style (q.depth + 1).toNat raw = pure (Reflow.continuedStep style q raw).2 := by
  have hcolumns := h.columns_of_le h.toNat_level.le
  unfold continuedLine
  dsimp only [Reflow.continuedStep]
  split
  · split
    · exact indentation_eq hA hcolumns
    · rfl
  · exact indent_eq hA hcolumns _

section Counted

variable {part : List Char} (hpart : Reflow.countedPart q raw = part)
include hpart

theorem braces_eq : A.balance '{' '}' part = pure (Bracket.braces part) := by
  subst hpart
  exact balance_eq hA (by decide) fun t ht => h.braces ht

theorem parens_eq : A.balance '(' ')' part = pure (Bracket.parens part) := by
  subst hpart
  exact balance_eq hA (by decide) fun t ht => h.parens ht

omit [LawfulMonad M] in
theorem continuation_eq :
    A.shift (Counts.of q).continuation (Bracket.parens part) =
      pure (Reflow.shift q.continuation (Bracket.parens part)).toNat := by
  subst hpart
  exact shift_eq hA h.continuation

theorem openDepth_eq :
    A.openDepth (Counts.of q).depth part =
      pure ((Reflow.openDepth q.depth part).1.toNat, (Reflow.openDepth q.depth part).2) := by
  have hdelta : A.signed (Bracket.braces part + 1) = pure (Bracket.braces part + 1) := by
    subst hpart
    exact hA.signed h.delta
  have hpos : 0 < (Counts.of q).depth ↔ 0 < q.depth := by
    rw [UInt64.lt_iff_toNat_lt]
    rfl
  rw [openDepth, braces_eq hA h hpart, pure_bind, hdelta]
  unfold Reflow.openDepth
  simp only [hpos]
  split
  · next hs =>
    rw [pure_bind, toNat_sub_one hs.2]
    rfl
  · rfl

omit [LawfulMonad M] in
theorem shift_openDepth_eq :
    A.shift (Reflow.openDepth q.depth part).1.toNat (Reflow.openDepth q.depth part).2 =
      pure (Reflow.shift (Reflow.openDepth q.depth part).1
        (Reflow.openDepth q.depth part).2).toNat := by
  apply shift_eq hA
  rw [openDepth_sum]
  subst hpart
  exact h.depth

end Counted

theorem continuedStep_eq (hpart : Reflow.countedPart q raw = scanned raw) :
    A.continuedStep style (.of q) raw =
      pure (.of (Reflow.continuedStep style q raw).1, (Reflow.continuedStep style q raw).2) := by
  have hlevel : A.unsigned ((Counts.of q).depth + 1) = pure (q.depth + 1).toNat := by
    rw [h.toNat_level]
    exact hA.unsigned h.level
  have hdepth : A.shift (Counts.of q).depth (Bracket.braces (scanned raw)) =
      pure (Reflow.shift q.depth (Bracket.braces (scanned raw))).toNat :=
    shift_eq hA (hpart ▸ h.depth)
  rw [continuedStep, braces_eq hA h hpart, pure_bind, hlevel, pure_bind, continuedLine_eq hA h,
    pure_bind, hdepth, pure_bind, parens_eq hA h hpart, pure_bind, continuation_eq hA h hpart,
    pure_bind]
  rfl

theorem plainStep_eq (hpart : Reflow.countedPart q raw = skeleton raw) :
    A.plainStep style (.of q) raw =
      pure (.of (Reflow.plainStep style q raw).1, (Reflow.plainStep style q raw).2) := by
  have hcolumns := h.columns_of_le (Nat.le_succ_of_le (toNat_openDepth_le q.depth (skeleton raw)))
  rw [plainStep, openDepth_eq hA h hpart, pure_bind]
  dsimp only
  rw [indent_eq hA hcolumns, pure_bind, shift_openDepth_eq hA h hpart, pure_bind,
    parens_eq hA h hpart, pure_bind, continuation_eq hA h hpart, pure_bind]
  rfl

theorem step_eq :
    A.step style (.of q) raw =
      pure (.of (Reflow.step style q raw).1, (Reflow.step style q raw).2) := by
  unfold step Reflow.step
  simp only [Counts.continued_iff]
  by_cases hq : q.inComment = true
  · have hof : (Counts.of q).inComment = true := hq
    rw [if_pos hof, if_pos hq]
    exact commentStep_eq hA h
  · have hof : (Counts.of q).inComment ≠ true := hq
    rw [if_neg hof, if_neg hq]
    by_cases ho : opensComment raw = true
    · rw [if_pos ho, if_pos ho]
      exact openingStep_eq hA h
    · rw [if_neg ho, if_neg ho]
      by_cases hk : q.isContinued = true
      · rw [if_pos hk, if_pos hk]
        exact continuedStep_eq hA h (by simp [Reflow.countedPart, hq, ho, hk])
      · rw [if_neg hk, if_neg hk]
        exact plainStep_eq hA h (by simp [Reflow.countedPart, hq, ho, hk])

end Steps

theorem render_eq {style : Style} {q : Reflow.State} {lines : List (List Char)}
    (h : ∀ before raw rest, lines = before ++ raw :: rest →
      Room style (Reflow.after style q before) raw) :
    A.render style (.of q) lines = pure (Reflow.render style q lines) := by
  induction lines generalizing q with
  | nil => rfl
  | cons raw rest ih =>
    have hstep := step_eq hA (h [] raw rest rfl)
    have hrest := ih (q := (Reflow.step style q raw).1) fun before raw' rest' hlines =>
      h (raw :: before) raw' rest' (congrArg (raw :: ·) hlines)
    rw [Reflow.after_nil] at hstep
    rw [render, hstep, pure_bind]
    dsimp only
    rw [hrest, pure_bind, Reflow.render_cons]

/-- The counter of a blank run goes up once for a segment at most. -/
theorem keep_eq {limit : Nat} {seen : Bool} {run : Nat} {ts : List (List Char)}
    (h : run + ts.length < 2 ^ 63) :
    A.keep limit seen run ts = pure (BlankRun.keep limit seen run ts) := by
  fun_induction BlankRun.keep limit seen run ts with
  | case1 => rfl
  | case2 run t ts ht hrun ih =>
    rw [List.length_cons] at h
    rw [keep, if_pos ht, if_pos rfl, hA.unsigned (by omega), pure_bind, ih (by omega), pure_bind,
      if_pos hrun]
  | case3 run t ts ht hrun ih =>
    rw [List.length_cons] at h
    rw [keep, if_pos ht, if_pos rfl, hA.unsigned (by omega), pure_bind, ih (by omega), pure_bind,
      if_neg hrun]
  | case4 seen run t ts ht hseen ih =>
    rw [List.length_cons] at h
    rw [keep, if_pos ht, if_neg hseen, ih (by omega)]
  | case5 seen run t ts ht ih =>
    rw [List.length_cons] at h
    rw [keep, if_neg ht, ih (by omega), pure_bind]

theorem limit_eq {text : List Char} (h : (segments text).length < 2 ^ 63) (n : Int32) :
    A.limit n text = pure (BlankRun.limit n text) := by
  unfold limit BlankRun.limit
  split
  · rfl
  · rw [keep_eq hA (by rwa [Nat.zero_add]), pure_bind]

end Faithful
end Arithmetic

namespace Utf8

theorem size_encode_cons (c : Char) (s : List Char) :
    (encode (c :: s)).size = c.utf8Size + (encode s).size := by
  simp [encode, List.utf8Encode_singleton, String.length_utf8EncodeChar]

theorem length_le_size_encode (s : List Char) : s.length ≤ (encode s).size := by
  induction s with
  | nil => exact Nat.zero_le _
  | cons c s ih =>
    have hc := c.utf8Size_pos
    rw [List.length_cons, size_encode_cons]
    omega

end Utf8

namespace Bracket

theorem balance_le_count (opening closing : Char) {s l : List Char} (h : s.Sublist l) :
    balance opening closing s ≤ l.count opening := by
  have hcount := h.count_le opening
  unfold balance
  omega

theorem natAbs_balance_le_length (opening closing : Char) (s : List Char) :
    (balance opening closing s).natAbs ≤ s.length := by
  have ho : s.count opening ≤ s.length := List.count_le_length
  have hc : s.count closing ≤ s.length := List.count_le_length
  unfold balance
  omega

end Bracket

namespace Reflow

theorem rawLines_flatten_sublist (text : List Char) : (rawLines text).1.flatten.Sublist text := by
  have hdrop : ∀ l : List Char, (dropReturn l).Sublist l := by
    intro l
    unfold dropReturn
    split
    · exact List.dropLast_sublist l
    · exact List.Sublist.refl l
  induction text using line_induction with
  | last l hl => simpa [rawLines_of_notMem hl] using hdrop l
  | line l s hl ih =>
    by_cases hs : s = []
    · subst hs
      simpa [rawLines_line_nil hl] using (hdrop l).trans (List.sublist_append_left l ['\n'])
    · rw [rawLines_line hl hs, List.flatten_cons]
      exact (hdrop l).append (ih.cons '\n')

theorem counters_step_le (style : Style) (q : State) (raw : List Char) :
    (step style q raw).1.depth.toNat ≤ q.depth.toNat + raw.count '{' ∧
      (step style q raw).1.continuation.toNat ≤ q.continuation.toNat + raw.count '(' := by
  obtain ⟨hdepth, hcontinuation⟩ := step_counters style q raw
  have hb : Bracket.braces (countedPart q raw) ≤ raw.count '{' :=
    Bracket.balance_le_count _ _ (countedPart_sublist q raw)
  have hp : Bracket.parens (countedPart q raw) ≤ raw.count '(' :=
    Bracket.balance_le_count _ _ (countedPart_sublist q raw)
  rw [hdepth, hcontinuation, toNat_shift, toNat_shift]
  omega

theorem counters_after_le (style : Style) (q : State) (lines : List (List Char)) :
    (after style q lines).depth.toNat ≤ q.depth.toNat + lines.flatten.count '{' ∧
      (after style q lines).continuation.toNat ≤
        q.continuation.toNat + lines.flatten.count '(' := by
  induction lines generalizing q with
  | nil => exact ⟨Nat.le_refl _, Nat.le_refl _⟩
  | cons raw rest ih =>
    have hstep := counters_step_le style q raw
    have hrest := ih (step style q raw).1
    rw [after_cons, List.flatten_cons, List.count_append, List.count_append]
    omega

/-- From the start of a document each counter is at most the number of its opening brackets. -/
theorem counters_le (style : Style) (lines : List (List Char)) :
    (after style {} lines).depth.toNat ≤ lines.flatten.count '{' ∧
      (after style {} lines).continuation.toNat ≤ lines.flatten.count '(' := by
  have hzero : (0 : UInt64).toNat = 0 := rfl
  simpa only [hzero, Nat.zero_add] using counters_after_le style {} lines

@[simp] theorem length_renderSegments (style : Style) (eol : List Char) (q : State)
    (ts : List (List Char)) : (renderSegments style eol q ts).length = ts.length := by
  induction ts generalizing q with
  | nil => rfl
  | cons t ts ih =>
    unfold renderSegments
    split <;> rw [List.length_cons, List.length_cons, ih]

theorem length_segments_reindent_le (style : Style) (text : List Char) :
    (segments (reindent style text)).length ≤ (segments text).length := by
  have hcut := cut_renderSegments style (holds ['\r', '\n'] text) {} (cut_segments text)
  rw [reindent_eq_flatten, terminator_eq_lineEnd, hcut.segments_flatten]
  exact (List.length_filter_le _ _).trans_eq (length_renderSegments _ _ _ _)

end Reflow

theorem Text.length_segments_le (s : List Char) : (segments s).length ≤ s.length := by
  induction s using line_induction with
  | last l hl =>
    cases l with
    | nil => exact Nat.le_refl 0
    | cons c l => simp [segments_of_notMem hl]
  | line l s hl ih =>
    rw [segments_line hl, List.length_cons, List.length_append, List.length_cons]
    omega

namespace Arithmetic

open Run

theorem room_of_le {style : Style} {q : Reflow.State} {raw : List Char}
    (hwidth : style.tabWidth ≤ Settings.widestTab)
    (hdepth : q.depth.toNat + raw.length ≤ largestScript)
    (hcontinuation : q.continuation.toNat + raw.length ≤ largestScript) : Room style q raw := by
  have hlargest : largestScript = 104857600 := rfl
  have htab : style.tabWidth.toNat ≤ 16 := UInt64.le_iff_toNat_le.mp hwidth
  have hsize : UInt64.size = 18446744073709551616 := rfl
  have hpart := (Reflow.countedPart_sublist q raw).length_le
  have hbalance : ∀ (o c : Char) {s : List Char}, s <+: Reflow.countedPart q raw →
      (Bracket.balance o c s).natAbs ≤ raw.length := fun o c s hs =>
    (Bracket.natAbs_balance_le_length o c s).trans (hs.length_le.trans hpart)
  have hb := hbalance '{' '}' List.prefix_rfl
  have hp := hbalance '(' ')' List.prefix_rfl
  constructor
  · intro s hs
    have := hbalance '{' '}' hs
    unfold FitsSigned Bracket.braces
    omega
  · intro s hs
    have := hbalance '(' ')' hs
    unfold FitsSigned Bracket.parens
    omega
  · unfold FitsSigned Bracket.braces
    omega
  · omega
  · calc (q.depth.toNat + 1) * style.tabWidth.toNat
        ≤ (104857600 + 1) * 16 := Nat.mul_le_mul (by omega) htab
      _ < 2 ^ 63 := by decide
  · unfold Bracket.braces
    omega
  · unfold Bracket.parens
    omega

theorem tabWidth_le {s : Settings} (hs : s.fault? = none) : s.tabWidth ≤ Settings.widestTab := by
  by_contra h
  rw [UInt64.not_le] at h
  rw [Settings.fault?, if_pos h] at hs
  split at hs <;> cases hs

section Script

variable {s : Settings} {text : List Char} (hs : s.fault? = none)
  (hsize : (Utf8.encode text).size ≤ largestScript)
include hs hsize

/-- The words have room at every line of a script that is not too large. -/
theorem room_of_size (before : List (List Char)) (raw : List Char) (rest : List (List Char))
    (hlines : (Reflow.rawLines text).1 = before ++ raw :: rest) :
    Room s.style (Reflow.after s.style {} before) raw := by
  have hlength : before.flatten.length + raw.length ≤ largestScript := by
    have hsub := (Reflow.rawLines_flatten_sublist text).length_le
    rw [hlines, List.flatten_append, List.flatten_cons, List.length_append,
      List.length_append] at hsub
    have := Utf8.length_le_size_encode text
    omega
  obtain ⟨hdepth, hcontinuation⟩ := Reflow.counters_le s.style before
  have hbraces : before.flatten.count '{' ≤ before.flatten.length := List.count_le_length
  have hparens : before.flatten.count '(' ≤ before.flatten.length := List.count_le_length
  apply room_of_le (tabWidth_le hs) <;> omega

variable {M : Type → Type} [Monad M] [LawfulMonad M] {A : Arithmetic M} (hA : A.IsFaithful)
include hA

theorem reindent_eq : A.reindent s.style text = pure (Reflow.reindent s.style text) := by
  have hrender : A.render s.style {} (Reflow.rawLines text).1 = _ :=
    render_eq hA (q := {}) (room_of_size hs hsize)
  unfold reindent
  dsimp only
  rw [hrender, pure_bind]
  rfl

/-- Every arithmetic that leaves alone what the words have room for lays a script out in the same
way. -/
theorem layOut_eq : A.layOut s text = pure (Document.layOut s text) := by
  have hindented : A.indented s text = pure (Document.indented s text) := by
    unfold indented Document.indented
    split
    · exact reindent_eq hs hsize hA
    · rfl
  have hsegments : (segments (Document.indented s text)).length < 2 ^ 63 := by
    have hlargest : largestScript = 104857600 := rfl
    have hlength := Utf8.length_le_size_encode text
    have htext := length_segments_le text
    have hreindent := Reflow.length_segments_reindent_le s.style text
    unfold Document.indented
    split <;> omega
  rw [layOut, hindented, pure_bind, limit_eq hA hsegments, pure_bind]
  rfl

end Script

end Arithmetic

namespace Document

open Reflow Arithmetic

/-- The arithmetic of the layout does not overflow on a script that is not too large. At every line
the depth is at most the number of opening braces read so far, the number of open parentheses at
most that of the opening ones, and the words have room for all that the step computes. So checked
arithmetic, which would refuse any result that does not fit, goes through both passes that count,
and words lay the script out as numbers without bounds do. -/
theorem words_have_room {s : Settings} {text : List Char} (hs : s.fault? = none)
    (hsize : (Utf8.encode text).size ≤ Run.largestScript) :
    (∀ before, before <+: (rawLines text).1 →
      (after s.style {} before).depth.toNat ≤ before.flatten.count '{' ∧
        (after s.style {} before).continuation.toNat ≤ before.flatten.count '(') ∧
    (∀ before raw rest, (rawLines text).1 = before ++ raw :: rest →
      Room s.style (after s.style {} before) raw) ∧
    checked.reindent s.style text = some (Reflow.reindent s.style text) ∧
    checked.layOut s text = some (layOut s text) ∧
    (words.layOut s text).run = (exact.layOut s text).run ∧
    (exact.layOut s text).run = layOut s text := by
  have hwords : words.layOut s text = pure (layOut s text) :=
    Arithmetic.layOut_eq hs hsize isFaithful_words
  have hexact : exact.layOut s text = pure (layOut s text) :=
    Arithmetic.layOut_eq hs hsize isFaithful_exact
  refine ⟨fun before _ => counters_le s.style before, room_of_size hs hsize,
    reindent_eq hs hsize isFaithful_checked, Arithmetic.layOut_eq hs hsize isFaithful_checked,
    ?_, ?_⟩
  · rw [hwords, hexact]
  · rw [hexact]
    rfl

def wideText : List Char := "\x7d\nf(a, \x7b\n(b\n\n\n))\n\x7d".toList

theorem words_have_room_wideText :
    (after { tabWidth := 16 } {} ["\x7d".toList, "f(a, \x7b".toList]).depth.toNat ≤ 1 ∧
      Room { tabWidth := 16 } (after { tabWidth := 16 } {} ["\x7d".toList, "f(a, \x7b".toList])
        "(b".toList ∧
      checked.layOut { tabWidth := 16 } wideText = some (layOut { tabWidth := 16 } wideText) ∧
      (words.layOut { tabWidth := 16 } wideText).run = layOut { tabWidth := 16 } wideText := by
  have hs : Settings.fault? { tabWidth := 16 } = none := by decide
  have hsize : (Utf8.encode wideText).size ≤ Run.largestScript := by decide +kernel
  have hlines : (rawLines wideText).1 = ["\x7d".toList, "f(a, \x7b".toList] ++ "(b".toList ::
      ["".toList, "".toList, "))".toList, "\x7d".toList] := by decide +kernel
  obtain ⟨hcounts, hroom, -, hchecked, hwords, hexact⟩ := words_have_room hs hsize
  refine ⟨(hcounts _ ⟨_, hlines.symm⟩).1, hroom _ _ _ hlines, hchecked, hwords.trans hexact⟩

end Document
end HotkeyScript
