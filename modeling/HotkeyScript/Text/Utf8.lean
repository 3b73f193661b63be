/-!
# Text in bytes

Scripts and settings are kept as UTF-8. Decoding either gives the characters or says where the
first ill-formed sequence starts: how many bytes it spans before the byte that rules it out, or that
the bytes end in the middle of it.
-/

namespace HotkeyScript
namespace Utf8

inductive Fault
  | invalid (width start : Nat)
  | incomplete (start : Nat)
  deriving DecidableEq, Repr

/-- The bytes that may follow a lead byte: how many, and the range of the first of them. -/
def follow? (b : UInt8) : Option (Nat × UInt8 × UInt8) :=
  if b < 0x80 then some (0, 0, 0)
  else if b < 0xC2 then none
  else if b < 0xE0 then some (1, 0x80, 0xBF)
  else if b == 0xE0 then some (2, 0xA0, 0xBF)
  else if b == 0xED then some (2, 0x80, 0x9F)
  else if b < 0xF0 then some (2, 0x80, 0xBF)
  else if b == 0xF0 then some (3, 0x90, 0xBF)
  else if b < 0xF4 then some (3, 0x80, 0xBF)
  else if b == 0xF4 then some (3, 0x80, 0x8F)
  else none

/-- Walk over the bytes with `owed` continuation bytes still to come, the next of them between
`lo` and `hi`. The sequence in hand begins at `start` and has `width` bytes so far. -/
def faultFrom (start width owed : Nat) (lo hi : UInt8) : List UInt8 → Fault
  | [] => .incomplete start
  | b :: bs =>
    if owed = 0 then
      match follow? b with
      | none => .invalid 1 (start + width)
      | some (n, lo, hi) => faultFrom (start + width) 1 n lo hi bs
    else if lo ≤ b && b ≤ hi then faultFrom start (width + 1) (owed - 1) 0x80 0xBF bs
    else .invalid width start

def fault (bytes : ByteArray) : Fault := faultFrom 0 0 0 0 0 bytes.toList

def decode (bytes : ByteArray) : Except Fault (List Char) :=
  match bytes.utf8Decode? with
  | some cs => .ok cs.toList
  | none => .error (fault bytes)

def encode (s : List Char) : ByteArray := (String.ofList s).toUTF8

def width (s : List Char) : Nat := s.foldr (fun c n => c.utf8Size + n) 0

def Fault.message : Fault → String
  | .invalid n i => s!"invalid utf-8 sequence of {n} bytes from index {i}"
  | .incomplete i => s!"incomplete utf-8 byte sequence from index {i}"

@[simp] theorem decode_encode (s : List Char) : decode (encode s) = .ok s := by
  simp [decode, encode, List.utf8Decode?_utf8Encode]

theorem eq_encode_of_decode {b : ByteArray} {s : List Char} (h : decode b = .ok s) :
    b = encode s := by
  unfold decode at h
  split at h
  · next cs hcs =>
    have hb := ByteArray.utf8Encode_get_utf8Decode? (b := b) (h := by simp [hcs])
    simp_all [encode]
  · simp at h

@[simp] theorem width_nil : width [] = 0 := rfl

@[simp] theorem width_cons (c : Char) (s : List Char) : width (c :: s) = c.utf8Size + width s :=
  rfl

@[simp] theorem width_append (s t : List Char) : width (s ++ t) = width s + width t := by
  induction s with
  | nil => simp
  | cons c s ih => simp [ih, Nat.add_assoc]

end Utf8
end HotkeyScript
