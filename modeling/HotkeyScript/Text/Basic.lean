/-!
# Texts

The blank characters are those of the Unicode property White_Space, twenty-five code points in all.
Trimming and splitting into words go by this class alone: a zero-width space, a byte order mark
and the ASCII separators U+001C to U+001F are not blank.

Two letters match when they agree after simple case folding. The words that are looked for here
are ASCII, and folding sends just two characters outside ASCII to an ASCII letter: the long s
U+017F and the Kelvin sign U+212A.

A text is cut at its line feeds in two ways: `List.splitOn` gives the pieces between them, and
`segments` gives the pieces with each line feed left at the end of its piece. Putting the segments
together gives the text back.
-/

namespace HotkeyScript
namespace Text

def isBlank (c : Char) : Bool :=
  let n := c.toNat
  (0x09 ≤ n && n ≤ 0x0D) || n == 0x20 || n == 0x85 || n == 0xA0 || n == 0x1680 ||
    (0x2000 ≤ n && n ≤ 0x200A) || n == 0x2028 || n == 0x2029 || n == 0x202F || n == 0x205F ||
    n == 0x3000

/-- Characters of which one is in a class and the other is not are different. -/
theorem ne_of_class {p : Char → Bool} {c d : Char} (hc : p c = true) (hd : p d = false) :
    c ≠ d := by
  rintro rfl
  exact Bool.false_ne_true (hd.symm.trans hc)

def trimStart (s : List Char) : List Char := s.dropWhile isBlank

/-- Drop the longest tail whose characters all satisfy `p`. -/
def dropEndWhile (p : Char → Bool) (s : List Char) : List Char :=
  (s.reverse.dropWhile p).reverse

def trimEnd (s : List Char) : List Char := dropEndWhile isBlank s

def trim (s : List Char) : List Char := trimEnd (trimStart s)

/-- The maximal runs of characters that are not blank. -/
def words (s : List Char) : List (List Char) := (s.splitOnP isBlank).filter (!·.isEmpty)

@[simp] theorem trimStart_nil : trimStart [] = [] := rfl

@[simp] theorem trim_nil : trim [] = [] := rfl

theorem takeWhile_append_trimStart (s : List Char) :
    s.takeWhile isBlank ++ trimStart s = s :=
  List.takeWhile_append_dropWhile

@[simp] theorem trimStart_trimStart (s : List Char) : trimStart (trimStart s) = trimStart s := by
  induction s with
  | nil => rfl
  | cons c r ih => by_cases h : isBlank c <;> simp_all [trimStart]

def foldCase (c : Char) : Char :=
  if c == '\u017F' then 's' else if c == '\u212A' then 'k' else c.toLower

/-- The word `w`, in lower case, is spelled by `s` in some mixture of cases. -/
def spells (w : String) (s : List Char) : Bool := s.map foldCase == w.toList

/-- The text after `w` when the text begins with `w` in some mixture of cases. -/
def dropCaseless? : List Char → List Char → Option (List Char)
  | [], s => some s
  | _ :: _, [] => none
  | w :: ws, c :: s => if foldCase c == w then dropCaseless? ws s else none

def equalAscii (s t : List Char) : Bool := s.map Char.toLower == t.map Char.toLower

def holds (p : List Char) : List Char → Bool
  | [] => p.isEmpty
  | c :: s => p.isPrefixOf (c :: s) || holds p s

theorem holds_eq_true_iff {p s : List Char} : holds p s = true ↔ p <:+: s := by
  induction s with
  | nil => simp [holds]
  | cons c s ih => simp [holds, ih, List.infix_cons_iff]

theorem holds_eq_false_iff {p s : List Char} : holds p s = false ↔ ¬p <:+: s := by
  rw [← holds_eq_true_iff, Bool.not_eq_true]

/-- The pieces between the occurrences of a character do not hold it. -/
theorem notMem_of_mem_splitOn {c : Char} {s piece : List Char} (h : piece ∈ s.splitOn c) :
    c ∉ piece := by
  induction s generalizing piece with
  | nil => simp_all
  | cons d s ih =>
    rw [List.splitOn_cons_eq_if_modifyHead] at h
    split at h
    · rcases List.mem_cons.mp h with rfl | h
      · exact List.not_mem_nil
      · exact ih h
    · next hd =>
      cases hs : s.splitOn c with
      | nil => exact absurd hs (List.splitOn_ne_nil c s)
      | cons first rest =>
        rw [hs] at ih
        rw [hs, List.modifyHead_cons, List.mem_cons] at h
        rcases h with rfl | h
        · have hne : c ≠ d := fun he => hd (by simp [he])
          rw [List.mem_cons, not_or]
          exact ⟨hne, ih List.mem_cons_self⟩
        · exact ih (List.mem_cons_of_mem first h)

def segments : List Char → List (List Char)
  | [] => []
  | c :: s =>
    if c = '\n' then [c] :: segments s
    else match segments s with
      | [] => [[c]]
      | t :: ts => (c :: t) :: ts

@[simp] theorem segments_nil : segments [] = [] := rfl

@[simp] theorem flatten_segments (s : List Char) : (segments s).flatten = s := by
  induction s with
  | nil => rfl
  | cons c s ih =>
    unfold segments
    split
    · simp [ih]
    · split <;> simp_all

def isBreak (c : Char) : Bool := c == '\n' || c == '\r'

/-- The text without one carriage return at its end. -/
def dropReturn (s : List Char) : List Char :=
  if s.getLast? = some '\r' then s.dropLast else s

/-- The text without `c` at its end, if it ends in `c`. -/
def dropLast? (c : Char) (s : List Char) : Option (List Char) :=
  if s.getLast? = some c then some s.dropLast else none

/-- A segment without its line feed, and without a carriage return before that line feed. -/
def lineOf (t : List Char) : List Char :=
  match dropLast? '\n' t with
  | none => t
  | some u => dropReturn u

/-- The lines of a text; a line feed at the very end starts no further line. -/
def lines (s : List Char) : List (List Char) := (segments s).map lineOf

end Text
end HotkeyScript
