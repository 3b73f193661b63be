import HotkeyScript.Reflow
import HotkeyScript.Proofs.Skeleton

/-!
# Layout follows nesting

A well-nested document is a list of items. An item is a statement, which is one logical line and
may run over several lines of text while parentheses are open, or a block, which has an opener, the
items inside it and a closing line. Reflow puts every line at the level of its item: the opener,
the middle lines such as `} else {` and the closing line of a block at the level of the block, the
items inside one level further in, and the lines that continue a logical line one level further in
than its first line.
-/

namespace HotkeyScript
namespace Style

def level (style : Style) (n : Nat) : List Char :=
  if style.useSpaces then List.replicate (n * style.tabWidth.toNat) ' ' else List.replicate n '\t'

/-- A level is usable when it is a word and the number of its blanks is a word. -/
def Fits (style : Style) (n : Nat) : Prop :=
  n < UInt64.size ∧ (style.useSpaces = true → n * style.tabWidth.toNat < UInt64.size)

instance (style : Style) (n : Nat) : Decidable (style.Fits n) :=
  inferInstanceAs (Decidable (_ ∧ _))

theorem Fits.mono {style : Style} {m n : Nat} (h : style.Fits n) (hmn : m ≤ n) :
    style.Fits m := by
  refine ⟨lt_of_le_of_lt hmn h.1, fun hs => ?_⟩
  calc m * style.tabWidth.toNat ≤ n * style.tabWidth.toNat := Nat.mul_le_mul_right _ hmn
    _ < UInt64.size := h.2 hs

theorem indentation_of_fits {style : Style} {n : Nat} (h : style.Fits n) :
    style.indentation (UInt64.ofNat n) = style.level n := by
  unfold indentation level
  by_cases hs : style.useSpaces = true
  · have hwidth : n * style.tabWidth.toNat < UInt64.size := h.2 hs
    rw [if_pos hs, if_pos hs, UInt64.toNat_mul, UInt64.toNat_ofNat_of_lt' h.1,
      Nat.mod_eq_of_lt hwidth]
  · rw [if_neg hs, if_neg hs, UInt64.toNat_ofNat_of_lt' h.1]

end Style

namespace Nesting

open Text Line Reflow

theorem parens_le_length {s l : List Char} (h : s.Sublist l) : Bracket.parens s ≤ l.length :=
  Bracket.balance_le_length '(' ')' h

theorem head?_trim_cons {c : Char} (hc : isBlank c = false) (s : List Char) :
    (trim (c :: s)).head? = some c := by
  rw [trim_cons_of_not_blank hc, List.head?_cons]

theorem head?_skeleton_of_opensComment {l : List Char} (h : opensComment l = true) :
    (skeleton l).head? = some '/' := by
  have hblank : isBlank '/' = false := by decide
  obtain ⟨rest, hrest⟩ : ['/', '*'] <+: trimStart l := List.isPrefixOf_iff_prefix.mp h
  have hkind : kind ('/' :: '*' :: rest) ≠ .command := by
    have hslash : isTokenChar '/' = false := by decide
    simp [kind, firstToken?, hslash, trimStart_cons_of_not_blank hblank]
  calc (skeleton l).head? = (skeleton ('/' :: '*' :: rest)).head? := by
        rw [← skeleton_trimStart, ← hrest]
        rfl
    _ = (trim ('/' :: Scan.kept .code ('*' :: rest))).head? := by
        rw [skeleton_of_ne_command hkind]
        rfl
    _ = some '/' := head?_trim_cons hblank _

theorem opensComment_of_head {l : List Char} (h : (skeleton l).head? = some '}') :
    opensComment l = false := by
  cases hopen : opensComment l with
  | false => rfl
  | true =>
    have hslash := head?_skeleton_of_opensComment hopen
    rw [h] at hslash
    exact absurd hslash (by decide)

theorem trimStart_ne_nil_of_head {l : List Char} (h : (skeleton l).head? = some '}') :
    trimStart l ≠ [] := by
  intro hnil
  rw [← skeleton_trimStart, hnil] at h
  exact absurd h (by decide)

def IsCode (l : List Char) : Prop := '\n' ∉ l ∧ trimStart l ≠ [] ∧ opensComment l = false

instance (l : List Char) : Decidable (IsCode l) := inferInstanceAs (Decidable (_ ∧ _))

/-- The lines after one that leaves `opened` parentheses open. There are open parentheses in front
of each of these lines and none after the last one, and only the last one moves the depth. -/
def Continues (rise : Nat) : Int → List (List Char) → Prop
  | opened, [] => opened = 0
  | opened, l :: rest =>
    0 < opened ∧ IsCode l ∧ Bracket.braces (scanned l) = (if rest = [] then rise else 0) ∧
      Continues rise (opened + Bracket.parens (scanned l)) rest

instance Continues.decidable (rise : Nat) :
    (opened : Int) → (ls : List (List Char)) → Decidable (Continues rise opened ls)
  | opened, [] => inferInstanceAs (Decidable (opened = 0))
  | opened, l :: rest =>
    have := Continues.decidable rise (opened + Bracket.parens (scanned l)) rest
    inferInstanceAs (Decidable (0 < opened ∧ IsCode l ∧
      Bracket.braces (scanned l) = (if rest = [] then rise else 0) ∧
      Continues rise (opened + Bracket.parens (scanned l)) rest))

/-- A line that does not close a block, with the lines that continue it. It leaves `rise` blocks
open. -/
structure LogicalLine (rise : Nat) where
  first : List Char
  rest : List (List Char) := []
  isCode : IsCode first := by decide
  head : (skeleton first).head? ≠ some '}' := by decide
  braces : Bracket.braces (skeleton first) = (if rest = [] then rise else 0) := by decide
  continues : Continues rise (Bracket.parens (skeleton first)) rest := by decide

/-- A line that closes a block, and may open another one. The depth moves by `delta`. -/
structure BraceLine (delta : Int) where
  line : List Char
  feed : '\n' ∉ line := by decide
  head : (skeleton line).head? = some '}' := by decide
  braces : Bracket.braces (skeleton line) = delta := by decide
  parens : Bracket.parens (skeleton line) = 0 := by decide

def nested (n k : Nat) : State := { depth := .ofNat n, continuation := .ofNat k }

theorem shift_ofNat {n m : Nat} {d : Int} (hn : n < UInt64.size) (hm : m < UInt64.size)
    (h : n + d = m) : shift (.ofNat n) d = .ofNat m := by
  apply UInt64.toNat_inj.mp
  rw [toNat_shift, UInt64.toNat_ofNat_of_lt' hn, UInt64.toNat_ofNat_of_lt' hm, h, Int.toNat_natCast]
  omega

theorem step_nested (style : Style) {n k : Nat} {l : List Char} (hk : k < UInt64.size)
    (hl : opensComment l = false) :
    step style (nested n k) l =
      if 0 < k then continuedStep style (nested n k) l else plainStep style (nested n k) l := by
  have hcont : (nested n k).isContinued = decide (0 < k) := by
    simp only [State.isContinued, nested, UInt64.lt_iff_toNat_lt, UInt64.toNat_ofNat_of_lt' hk]
    rfl
  have hcomment : (nested n k).inComment = false := rfl
  rw [step_of_code hcomment hl, hcont]
  simp only [decide_eq_true_eq]

theorem indent_eq_level {style : Style} {n : Nat} {s : List Char} (hfit : style.Fits n)
    (hs : s ≠ []) : style.indent (.ofNat n) s = style.level n ++ s := by
  rw [Style.indent, if_neg hs, Style.indentation_of_fits hfit]

def continuedLine (style : Style) (n : Nat) (l : List Char) : List Char :=
  if style.keepContinuation then l else style.level (n + 1) ++ trimStart l

theorem step_first {style : Style} {n m k : Nat} {l : List Char} (hcode : IsCode l)
    (hhead : (skeleton l).head? ≠ some '}') (hfit : style.Fits n) (hm : m < UInt64.size)
    (hk : k < UInt64.size) (hbraces : n + Bracket.braces (skeleton l) = m)
    (hparens : Bracket.parens (skeleton l) = k) :
    step style (nested n 0) l = (nested m k, style.level n ++ trimStart l) := by
  have hdepth : openDepth (.ofNat n) (skeleton l) = (.ofNat n, Bracket.braces (skeleton l)) := by
    rw [openDepth, if_neg fun h => hhead h.1]
  have hopen : shift (.ofNat 0) (Bracket.parens (skeleton l)) = .ofNat k :=
    shift_ofNat (by decide) hk (by omega)
  rw [step_nested style (by decide) hcode.2.2, if_neg (Nat.lt_irrefl 0), plainStep]
  simp only [nested, hdepth, hopen, shift_ofNat hfit.1 hm hbraces, indent_eq_level hfit hcode.2.1]

theorem step_continued {style : Style} {n m k j : Nat} {l : List Char} (hcode : IsCode l)
    (hfit : style.Fits (n + 1)) (hpos : 0 < k) (hk : k < UInt64.size) (hm : m < UInt64.size)
    (hj : j < UInt64.size) (hbraces : n + Bracket.braces (scanned l) = m)
    (hparens : k + Bracket.parens (scanned l) = j) :
    step style (nested n k) l = (nested m j, continuedLine style n l) := by
  have hn : n < UInt64.size := (hfit.mono (Nat.le_succ n)).1
  have hsucc : UInt64.ofNat n + 1 = .ofNat (n + 1) := (UInt64.ofNat_add n 1).symm
  rw [step_nested style hk hcode.2.2, if_pos hpos, continuedStep, continuedLine]
  simp only [nested, shift_ofNat hn hm hbraces, shift_ofNat hk hj hparens, hsucc, hcode.2.1,
    if_false, indent_eq_level hfit hcode.2.1]

/-- A closing brace at the start of a line takes the line one level out. What is left of the
balance moves the depth from there. -/
theorem step_brace {style : Style} {n m : Nat} {delta : Int} (b : BraceLine delta)
    (hfit : style.Fits (n + 1)) (hm : m < UInt64.size) (hdelta : (n + 1 : Nat) + delta = m) :
    step style (nested (n + 1) 0) b.line = (nested m 0, style.level n ++ trimStart b.line) := by
  have hfit' : style.Fits n := hfit.mono (Nat.le_succ n)
  have hpos : 0 < UInt64.ofNat (n + 1) := by
    rw [UInt64.lt_iff_toNat_lt, UInt64.toNat_ofNat_of_lt' hfit.1]
    exact Nat.succ_pos n
  have hpred : UInt64.ofNat (n + 1) - 1 = .ofNat n := by
    rw [UInt64.ofNat_add]
    exact UInt64.add_sub_cancel _ _
  have hdepth : openDepth (.ofNat (n + 1)) (skeleton b.line) = (.ofNat n, delta + 1) := by
    rw [openDepth, if_pos ⟨b.head, hpos⟩, hpred, b.braces]
  have hshift : shift (.ofNat n) (delta + 1) = .ofNat m := shift_ofNat hfit'.1 hm (by omega)
  rw [step_nested style (by decide) (opensComment_of_head b.head), if_neg (Nat.lt_irrefl 0),
    plainStep]
  simp only [nested, hdepth, hshift, b.parens, shift_zero,
    indent_eq_level hfit' (trimStart_ne_nil_of_head b.head)]

/-- From state `q`, the lines `u` are rendered as `v` and lead to state `p`. -/
structure Lays (style : Style) (q : State) (u v : List (List Char)) (p : State) : Prop where
  rendered : render style q u = v
  reached : after style q u = p

theorem Lays.nil (style : Style) (q : State) : Lays style q [] [] q := ⟨rfl, rfl⟩

theorem Lays.cons {style : Style} {q p r : State} {l w : List Char} {u v : List (List Char)}
    (hl : step style q l = (p, w)) (hu : Lays style p u v r) :
    Lays style q (l :: u) (w :: v) r := by
  refine ⟨?_, ?_⟩
  · rw [render_cons, hl, hu.rendered]
  · rw [after_cons, hl, hu.reached]

theorem Lays.append {style : Style} {q p r : State} {u v u' v' : List (List Char)}
    (h : Lays style q u v p) (h' : Lays style p u' v' r) :
    Lays style q (u ++ u') (v ++ v') r := by
  refine ⟨?_, ?_⟩
  · rw [render_append, h.rendered, h.reached, h'.rendered]
  · rw [after_append, h.reached, h'.reached]

/-- While parentheses are open the depth stays, and the last line moves it. The open parentheses
are fewer than the characters read, so their number is a word. -/
theorem lays_continues {style : Style} {rise n k : Nat} {ls : List (List Char)}
    (hc : Continues rise k ls) (hne : ls ≠ []) (hfit : style.Fits (n + 1))
    (hrise : n + rise < UInt64.size) (hlen : k + ls.flatten.length < UInt64.size) :
    Lays style (nested n k) ls (ls.map (continuedLine style n)) (nested (n + rise) 0) := by
  induction ls generalizing k with
  | nil => exact absurd rfl hne
  | cons l rest ih =>
    obtain ⟨hpos, hcode, hbraces, hrest⟩ := hc
    rw [List.flatten_cons, List.length_append] at hlen
    have hparens := parens_le_length (scanned_sublist l)
    cases rest with
    | nil =>
      have hclosed : (k : Int) + Bracket.parens (scanned l) = (0 : Nat) := hrest
      rw [if_pos rfl] at hbraces
      refine Lays.cons ?_ (Lays.nil style _)
      exact step_continued hcode hfit (by omega) (by omega) hrise (by decide) (by omega) hclosed
    | cons l' rest =>
      have hopen : 0 < (k : Int) + Bracket.parens (scanned l) := hrest.1
      obtain ⟨j, hj⟩ : ∃ j : Nat, (k : Int) + Bracket.parens (scanned l) = j :=
        Int.eq_ofNat_of_zero_le hopen.le
      rw [if_neg (List.cons_ne_nil _ _)] at hbraces
      rw [hj] at hrest
      refine Lays.cons ?_ (ih hrest (List.cons_ne_nil _ _) (by omega))
      exact step_continued hcode hfit (by omega) (by omega) (by omega) (by omega) (by omega) hj

namespace LogicalLine

variable {rise : Nat}

def lines (s : LogicalLine rise) : List (List Char) := s.first :: s.rest

def layOut (style : Style) (n : Nat) (s : LogicalLine rise) : List (List Char) :=
  (style.level n ++ trimStart s.first) :: s.rest.map (continuedLine style n)

def reach (s : LogicalLine rise) : Nat := if s.rest = [] then 0 else 1

theorem lays (s : LogicalLine rise) {style : Style} {n : Nat} (hfit : style.Fits (n + s.reach))
    (hrise : n + rise < UInt64.size) (hlen : s.lines.flatten.length < UInt64.size) :
    Lays style (nested n 0) s.lines (s.layOut style n) (nested (n + rise) 0) := by
  have hfirst : style.Fits n := hfit.mono (Nat.le_add_right n _)
  have hparens := parens_le_length (skeleton_sublist s.first)
  have hbraces := s.braces
  have hcont := s.continues
  simp only [lines, List.flatten_cons, List.length_append] at hlen
  unfold reach at hfit
  unfold lines layOut
  generalize s.rest = rest at hfit hlen hbraces hcont ⊢
  cases rest with
  | nil =>
    have hclosed : Bracket.parens (skeleton s.first) = (0 : Nat) := hcont
    rw [if_pos rfl] at hbraces
    refine Lays.cons ?_ (Lays.nil style _)
    exact step_first s.isCode s.head hfirst hrise (by decide) (by omega) hclosed
  | cons l rest =>
    have hopen : 0 < Bracket.parens (skeleton s.first) := hcont.1
    obtain ⟨k, hk⟩ : ∃ k : Nat, Bracket.parens (skeleton s.first) = k :=
      Int.eq_ofNat_of_zero_le hopen.le
    rw [if_neg (List.cons_ne_nil _ _)] at hbraces
    rw [hk] at hcont
    refine Lays.cons ?_ (lays_continues hcont (List.cons_ne_nil _ _) hfit hrise (by omega))
    exact step_first s.isCode s.head hfirst hfirst.1 (by omega) (by omega) hk

end LogicalLine

mutual

inductive Item
  | statement (s : LogicalLine 0)
  | block (opener : LogicalLine 1) (inside : Inside)

/-- What follows the opener of a block: items, any number of middle lines with items after each of
them, and the closing line. -/
inductive Inside
  | item (t : Item) (rest : Inside)
  | middle (b : BraceLine 0) (rest : Inside)
  | close (b : BraceLine (-1))

end

mutual

def Item.lines : Item → List (List Char)
  | .statement s => s.lines
  | .block opener inside => opener.lines ++ inside.lines

def Inside.lines : Inside → List (List Char)
  | .item t rest => t.lines ++ rest.lines
  | .middle b rest => b.line :: rest.lines
  | .close b => [b.line]

end

mutual

def Item.layOut (style : Style) (n : Nat) : Item → List (List Char)
  | .statement s => s.layOut style n
  | .block opener inside => opener.layOut style n ++ inside.layOut style n

def Inside.layOut (style : Style) (n : Nat) : Inside → List (List Char)
  | .item t rest => t.layOut style (n + 1) ++ rest.layOut style n
  | .middle b rest => (style.level n ++ trimStart b.line) :: rest.layOut style n
  | .close b => [style.level n ++ trimStart b.line]

end

mutual

def Item.reach : Item → Nat
  | .statement s => s.reach
  | .block opener inside => max opener.reach inside.reach

def Inside.reach : Inside → Nat
  | .item t rest => max (t.reach + 1) rest.reach
  | .middle _ rest => rest.reach
  | .close _ => 1

end

theorem Inside.one_le_reach (inside : Inside) : 1 ≤ inside.reach := by
  cases inside with
  | item t rest => exact Nat.le_trans (Nat.le_add_left 1 _) (Nat.le_max_left _ _)
  | middle b rest => exact Inside.one_le_reach rest
  | close b => exact Nat.le_refl 1

mutual

/-- An item is laid out at its level and leads back to that level. -/
theorem Item.lays (t : Item) {style : Style} {n : Nat} (hfit : style.Fits (n + t.reach))
    (hlen : t.lines.flatten.length < UInt64.size) :
    Lays style (nested n 0) t.lines (t.layOut style n) (nested n 0) := by
  cases t with
  | statement s => exact s.lays hfit (hfit.mono (Nat.le_add_right n _)).1 hlen
  | block opener inside =>
    have hreach := inside.one_le_reach
    simp only [Item.lines, Item.reach, List.flatten_append, List.length_append] at hfit hlen
    have hinside : style.Fits (n + inside.reach) := hfit.mono (by omega)
    have hopener : style.Fits (n + opener.reach) := hfit.mono (by omega)
    have hopen := opener.lays hopener (hinside.mono (by omega)).1 (by omega)
    exact hopen.append (inside.lays hinside (by omega))

/-- The lines after the opener start one level in and lead back to the level of the block. -/
theorem Inside.lays (inside : Inside) {style : Style} {n : Nat}
    (hfit : style.Fits (n + inside.reach)) (hlen : inside.lines.flatten.length < UInt64.size) :
    Lays style (nested (n + 1) 0) inside.lines (inside.layOut style n) (nested n 0) := by
  have hreach := inside.one_le_reach
  have hin : style.Fits (n + 1) := hfit.mono (by omega)
  cases inside with
  | item t rest =>
    simp only [Inside.lines, Inside.reach, List.flatten_append, List.length_append] at hfit hlen
    have hitem : style.Fits (n + 1 + t.reach) := hfit.mono (by omega)
    have hrest : style.Fits (n + rest.reach) := hfit.mono (by omega)
    exact (t.lays hitem (by omega)).append (rest.lays hrest (by omega))
  | middle b rest =>
    simp only [Inside.lines, List.flatten_cons, List.length_append] at hlen
    have hstep := step_brace b hin hin.1 (Int.add_zero _)
    exact Lays.cons hstep (rest.lays hfit (by omega))
  | close b =>
    have hout : n < UInt64.size := (hin.mono (Nat.le_succ n)).1
    have hstep := step_brace b hin hout (by omega)
    exact Lays.cons hstep (Lays.nil style _)

end

/-- Every well-nested document is laid out by its nesting, from any depth, and leads back to that
depth. The levels that the document goes through have to be usable, and the number of its
characters has to be a word. -/
theorem reflow_follows_nesting (style : Style) (d : UInt64) (items : List Item)
    (hfit : ∀ t ∈ items, style.Fits (d.toNat + t.reach))
    (hlen : (items.flatMap Item.lines).flatten.length < UInt64.size) :
    render style { depth := d } (items.flatMap Item.lines) =
        items.flatMap (Item.layOut style d.toNat) ∧
      after style { depth := d } (items.flatMap Item.lines) = { depth := d } := by
  have hstart : nested d.toNat 0 = { depth := d } := by
    rw [nested, UInt64.ofNat_toNat]
    rfl
  suffices h : Lays style (nested d.toNat 0) (items.flatMap Item.lines)
      (items.flatMap (Item.layOut style d.toNat)) (nested d.toNat 0) by
    rw [hstart] at h
    exact ⟨h.rendered, h.reached⟩
  induction items with
  | nil => exact Lays.nil style _
  | cons t rest ih =>
    rw [List.flatMap_cons, List.flatten_append, List.length_append] at hlen
    have hitem := t.lays (hfit t List.mem_cons_self) (by omega)
    have hrest := ih (fun t' ht' => hfit t' (List.mem_cons_of_mem t ht')) (by omega)
    exact hitem.append hrest

def branching : Item :=
  .block { first := "if (a".toList, rest := ["&& f(\"\x7d\")) \x7b".toList] } <|
    .item (.statement { first := "x := 1".toList }) <|
    .middle { line := "\x7d else \x7b".toList } <|
    .item (.statement { first := "Send \x7bEnter".toList }) <|
    .close { line := "  \x7d ; done".toList }

theorem reflow_follows_nesting_branching :
    render {} { depth := 1 } ([branching].flatMap Item.lines) =
        ["    if (a", "        && f(\"\x7d\")) \x7b", "        x := 1", "    \x7d else \x7b",
          "        Send \x7bEnter", "    \x7d ; done"].map String.toList ∧
      after {} { depth := 1 } ([branching].flatMap Item.lines) = { depth := 1 } := by
  have h := reflow_follows_nesting {} 1 [branching] (by decide) (by decide)
  refine ⟨?_, h.2⟩
  rw [h.1]
  decide

end Nesting
end HotkeyScript
