import HotkeyScript.Text.Basic

/-!
# Decimal numerals

Unsigned numerals are words of 64 bits and signed ones are words of 32 bits. A numeral is a
non-empty run of decimal digits, after a sign where a sign may stand; leading zeros are allowed,
separators are not, and a number outside the width is refused.
-/

namespace HotkeyScript
namespace Numeral

def nat? (s : List Char) : Option Nat :=
  if s ≠ [] ∧ s.all Char.isDigit then some (Nat.ofDigitChars 10 s 0) else none

def word (n : Nat) : Option UInt64 := if n < UInt64.size then some (UInt64.ofNat n) else none

def signed (n : Int) : Option Int32 :=
  if Int32.minValue.toInt ≤ n ∧ n ≤ Int32.maxValue.toInt then some (Int32.ofInt n) else none

/-- A plus sign may stand before an unsigned numeral. -/
def word? : List Char → Option UInt64
  | '+' :: s => (nat? s).bind word
  | s => (nat? s).bind word

def signed? : List Char → Option Int32
  | '+' :: s => (nat? s).bind fun n => signed n
  | '-' :: s => (nat? s).bind fun n => signed (-n)
  | s => (nat? s).bind fun n => signed n

def ofNat (n : Nat) : List Char := Nat.toDigits 10 n

def ofInt : Int → List Char
  | .ofNat n => ofNat n
  | .negSucc n => '-' :: ofNat (n + 1)

def ofWord (n : UInt64) : List Char := ofNat n.toNat

def ofSigned (n : Int32) : List Char := ofInt n.toInt

theorem ofNat_isDigit {n : Nat} {c : Char} (h : c ∈ ofNat n) : c.isDigit = true :=
  Nat.isDigit_of_mem_toDigits (by decide) (by decide) h

@[simp] theorem nat?_ofNat (n : Nat) : nat? (ofNat n) = some n := by
  have h : (ofNat n).all Char.isDigit = true := by
    simp only [List.all_eq_true]
    exact fun c hc => ofNat_isDigit hc
  rw [nat?, if_pos ⟨Nat.toDigits_ne_nil, h⟩]
  exact congrArg some Nat.ofDigitChars_ten_toDigits

@[simp] theorem word_toNat (n : UInt64) : word n.toNat = some n := by
  rw [word, if_pos n.toNat_lt, UInt64.ofNat_toNat]

@[simp] theorem signed_toInt (n : Int32) : signed n.toInt = some n := by
  have h := n.toInt_lt
  rw [signed, if_pos ⟨n.le_toInt, Int.le_of_lt_add_one h⟩, Int32.ofInt_toInt]

theorem ofNat_head_isDigit (n : Nat) : ∃ c s, ofNat n = c :: s ∧ c.isDigit = true := by
  cases h : ofNat n with
  | nil => exact absurd h Nat.toDigits_ne_nil
  | cons c s => exact ⟨c, s, rfl, ofNat_isDigit (h ▸ List.mem_cons_self)⟩

theorem word?_ofWord (n : UInt64) : word? (ofWord n) = some n := by
  obtain ⟨c, s, h, hc⟩ := ofNat_head_isDigit n.toNat
  have : c ≠ '+' := by rintro rfl; simp at hc
  rw [ofWord, h, word?]
  · rw [← h, nat?_ofNat]; simp
  · simp [this]

theorem signed?_ofSigned (n : Int32) : signed? (ofSigned n) = some n := by
  have hn := signed_toInt n
  unfold ofSigned
  cases h : n.toInt with
  | ofNat k =>
    obtain ⟨c, s, hk, hc⟩ := ofNat_head_isDigit k
    have hplus : c ≠ '+' := Text.ne_of_class hc (by decide)
    have hminus : c ≠ '-' := Text.ne_of_class hc (by decide)
    have hread : signed? (ofNat k) = (nat? (ofNat k)).bind fun n => signed n := by
      rw [hk]
      simp [signed?, hplus, hminus]
    rw [h] at hn
    rw [ofInt, hread, nat?_ofNat]
    exact hn
  | negSucc k =>
    have hread : ∀ s, signed? ('-' :: s) = (nat? s).bind fun n => signed (-n) := fun _ => rfl
    rw [h, Int.negSucc_eq] at hn
    rw [ofInt, hread, nat?_ofNat, Option.bind_some]
    exact_mod_cast hn

end Numeral
end HotkeyScript
