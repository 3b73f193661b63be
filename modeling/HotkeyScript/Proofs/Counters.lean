import HotkeyScript.Proofs.Reflow
import Mathlib.Data.Finset.Lattice.Fold
import Mathlib.Algebra.BigOperators.Group.List.Basic
import Mathlib.Algebra.GroupWithZero.Nat
import Mathlib.Algebra.Ring.Int.Defs

/-!
# The counters of the reflow

The depth and the number of open parentheses are moved by every line and stop at zero. A line that
begins with a closing brace stands one level out, but that does not change where the depth goes from
there. So each counter is the sum of its moves, reflected at zero: the sum less the lowest value
that it has had, if that is negative.
-/

namespace HotkeyScript
namespace Reflow

open Text Line

/-- The lowest of the sums of `d` and the first `j` moves, for all `j`. -/
def lowest (d : Int) (ds : List Int) : Int :=
  (Finset.range (ds.length + 1)).inf' Finset.nonempty_range_add_one fun j => d + (ds.take j).sum

/-- The sum of `d` and all the moves, less what it has been below zero at its lowest. -/
def reflected (d : Int) (ds : List Int) : Int := d + ds.sum - min 0 (lowest d ds)

theorem lowest_append (d : Int) (ds : List Int) (e : Int) :
    lowest d (ds ++ [e]) = min (d + ds.sum + e) (lowest d ds) := by
  have hlength : (ds ++ [e]).length + 1 = ds.length + 1 + 1 := by simp
  have hlast : (ds ++ [e]).take (ds.length + 1) = ds ++ [e] := List.take_of_length_le (by simp)
  unfold lowest
  simp only [hlength, Finset.range_add_one (n := ds.length + 1)]
  rw [Finset.inf'_insert Finset.nonempty_range_add_one, hlast, List.sum_append,
    List.sum_singleton, ← add_assoc]
  congr 1
  refine Finset.inf'_congr _ rfl fun j hj => ?_
  rw [List.take_append_of_le_length (Nat.lt_succ_iff.mp (Finset.mem_range.mp hj))]

theorem reflected_nil {d : Int} (h : 0 ≤ d) : reflected d [] = d := by
  simp [reflected, lowest, h]

/-- One move more is added to the counter, which stops at zero. -/
theorem reflected_append (d : Int) (ds : List Int) (e : Int) :
    reflected d (ds ++ [e]) = max 0 (reflected d ds + e) := by
  rw [reflected, reflected, lowest_append, List.sum_append, List.sum_singleton]
  omega

theorem toNat_foldl_shift_le (n : UInt64) (ds : List Int) :
    (ds.foldl shift n).toNat ≤ n.toNat + (ds.map Int.toNat).sum := by
  induction ds generalizing n with
  | nil => simp
  | cons d ds ih =>
    have hshift := toNat_shift n d
    have hrest := ih (shift n d)
    rw [List.foldl_cons, List.map_cons, List.sum_cons]
    omega

/-- A counter is a reflected sum if its moves up do not lead to the top, where it is cut off. -/
theorem foldl_shift_eq_reflected {n : UInt64} {ds : List Int}
    (h : n.toNat + (ds.map Int.toNat).sum < UInt64.size) :
    ((ds.foldl shift n).toNat : Int) = reflected n.toNat ds := by
  induction ds using List.reverseRecOn with
  | nil => rw [List.foldl_nil, reflected_nil (Int.natCast_nonneg _)]
  | append_singleton ds e ih =>
    rw [List.map_append, List.sum_append, List.map_singleton, List.sum_singleton] at h
    have hle := toNat_foldl_shift_le n ds
    have hshift := toNat_shift (ds.foldl shift n) e
    rw [reflected_append, ← ih (by omega), List.foldl_append, List.foldl_cons, List.foldl_nil]
    omega

/-- The part of a line whose brackets count: nothing of a line in a block comment, the line as
scanned if it continues an open parenthesis, and its skeleton otherwise. -/
def countedPart (q : State) (raw : List Char) : List Char :=
  if q.inComment || opensComment raw then []
  else if q.isContinued then scanned raw
  else skeleton raw

theorem countedPart_sublist (q : State) (raw : List Char) : (countedPart q raw).Sublist raw := by
  unfold countedPart
  split
  · exact List.nil_sublist raw
  · split
    · exact scanned_sublist raw
    · exact skeleton_sublist raw

/-- From one level out and with one more to go the depth comes to the same. -/
theorem shift_openDepth (depth : UInt64) (s : List Char) :
    shift (openDepth depth s).1 (openDepth depth s).2 = shift depth (Bracket.braces s) := by
  unfold openDepth
  split
  · next h =>
    have hpos : 0 < depth.toNat := UInt64.lt_iff_toNat_lt.mp h.2
    have hpred : (depth - 1).toNat = depth.toNat - 1 :=
      UInt64.toNat_sub_of_le _ _ (UInt64.le_iff_toNat_le.mpr hpos)
    apply UInt64.toNat_inj.mp
    rw [toNat_shift, toNat_shift, hpred]
    omega
  · rfl

theorem step_counters (style : Style) (q : State) (raw : List Char) :
    (step style q raw).1.depth = shift q.depth (Bracket.braces (countedPart q raw)) ∧
      (step style q raw).1.continuation =
        shift q.continuation (Bracket.parens (countedPart q raw)) := by
  have hzero : Bracket.braces [] = 0 ∧ Bracket.parens [] = 0 := ⟨rfl, rfl⟩
  unfold step countedPart
  by_cases hq : q.inComment = true
  · simp only [hq, Bool.true_or, if_true, commentStep, hzero, shift_zero]
    split <;> exact ⟨rfl, rfl⟩
  · by_cases ho : opensComment raw = true
    · simp [hq, ho, openingStep, hzero]
    · simp only [hq, ho, Bool.or_self, Bool.false_eq_true, if_false]
      split
      · exact ⟨rfl, rfl⟩
      · exact ⟨shift_openDepth q.depth (skeleton raw), rfl⟩

def countedParts (style : Style) : State → List (List Char) → List (List Char)
  | _, [] => []
  | q, raw :: rest => countedPart q raw :: countedParts style (step style q raw).1 rest

theorem after_counters (style : Style) (q : State) (lines : List (List Char)) :
    (after style q lines).depth =
        ((countedParts style q lines).map Bracket.braces).foldl shift q.depth ∧
      (after style q lines).continuation =
        ((countedParts style q lines).map Bracket.parens).foldl shift q.continuation := by
  induction lines generalizing q with
  | nil => exact ⟨rfl, rfl⟩
  | cons raw rest ih =>
    obtain ⟨hdepth, hcontinuation⟩ := step_counters style q raw
    have hrest := ih (step style q raw).1
    rw [hdepth, hcontinuation] at hrest
    exact hrest

theorem sum_toNat_balance_le (opening closing : Char) (style : Style) (q : State)
    (lines : List (List Char)) :
    (((countedParts style q lines).map (Bracket.balance opening closing)).map Int.toNat).sum ≤
      lines.flatten.length := by
  induction lines generalizing q with
  | nil => exact Nat.le_refl 0
  | cons raw rest ih =>
    have hrest := ih (step style q raw).1
    have hraw := Bracket.balance_le_length opening closing (countedPart_sublist q raw)
    simp only [countedParts, List.map_cons, List.sum_cons, List.flatten_cons, List.length_append]
    omega

/-- The counters of the reflow are reflected sums. After any lines the depth is the depth at the
start with all the brace balances, reflected at zero, and so is the number of open parentheses with
the parenthesis balances, as long as neither could grow out of its word. -/
theorem counters_are_reflected_sums {style : Style} {q : State} {lines : List (List Char)}
    (hdepth : q.depth.toNat + lines.flatten.length < UInt64.size)
    (hcontinuation : q.continuation.toNat + lines.flatten.length < UInt64.size) :
    ((after style q lines).depth.toNat : Int) =
        reflected q.depth.toNat ((countedParts style q lines).map Bracket.braces) ∧
      ((after style q lines).continuation.toNat : Int) =
        reflected q.continuation.toNat ((countedParts style q lines).map Bracket.parens) := by
  obtain ⟨hbraces, hparens⟩ := after_counters style q lines
  have hup := sum_toNat_balance_le '{' '}' style q lines
  have hup' := sum_toNat_balance_le '(' ')' style q lines
  rw [hbraces, hparens]
  exact ⟨foldl_shift_eq_reflected (Nat.lt_of_le_of_lt (Nat.add_le_add_left hup _) hdepth),
    foldl_shift_eq_reflected (Nat.lt_of_le_of_lt (Nat.add_le_add_left hup' _) hcontinuation)⟩

def unbalancedLines : List (List Char) :=
  ["\x7d \x7d \x7d", "\x7b", "\x7d else \x7b", "f(a \x7b", "b)) \x7d", "/* \x7b", "*/ (",
    "Send \x7b"].map String.toList

theorem counters_are_reflected_sums_unbalanced :
    ((after {} { depth := 2 } unbalancedLines).depth.toNat : Int) =
        reflected 2 [-3, 1, 0, 1, -1, 0, 0, 0] ∧
      ((after {} { depth := 2 } unbalancedLines).continuation.toNat : Int) =
        reflected 0 [0, 0, 0, 1, -2, 0, 0, 0] := by
  have h := @counters_are_reflected_sums {} { depth := 2 } unbalancedLines (by decide +kernel)
    (by decide +kernel)
  have hbraces : (countedParts {} { depth := 2 } unbalancedLines).map Bracket.braces =
      [-3, 1, 0, 1, -1, 0, 0, 0] := by decide +kernel
  have hparens : (countedParts {} { depth := 2 } unbalancedLines).map Bracket.parens =
      [0, 0, 0, 1, -2, 0, 0, 0] := by decide +kernel
  rw [hbraces, hparens] at h
  exact h

end Reflow
end HotkeyScript
