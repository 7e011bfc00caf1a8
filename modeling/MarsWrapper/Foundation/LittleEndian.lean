import Mathlib.Data.Nat.Digits.Lemmas
import Mathlib.Tactic

namespace Foundation.LittleEndian

/-- The low bytes of a number come least significant first. -/
def encode : Nat → Nat → List UInt8
  | 0, _ => []
  | width + 1, value => UInt8.ofNat value :: encode width (value / 256)

/-- A byte list denotes one number in base 256. -/
def decode (bytes : List UInt8) : Nat := Nat.ofDigits 256 (bytes.map UInt8.toNat)

@[simp] theorem length_encode (width value : Nat) : (encode width value).length = width := by
  induction width generalizing value with
  | zero => rfl
  | succ width ih => simp only [encode, List.length_cons, ih]

theorem decode_cons (byte : UInt8) (rest : List UInt8) :
    decode (byte :: rest) = byte.toNat + 256 * decode rest := by
  simp [decode, Nat.ofDigits_cons]

theorem decode_singleton (byte : UInt8) : decode [byte] = byte.toNat := by
  simp [decode]

/-- Decoding keeps exactly the encoded low bytes. -/
theorem decode_encode (width value : Nat) : decode (encode width value) = value % 256 ^ width := by
  induction width generalizing value with
  | zero => simp [encode, decode, Nat.mod_one]
  | succ width ih =>
      have low : (UInt8.ofNat value).toNat = value % 256 := UInt8.toNat_ofNat'
      rw [encode, decode_cons, ih, low, Nat.pow_succ', Nat.mod_mul]

/-- A decoded number fits the width of its bytes. -/
theorem decode_lt (bytes : List UInt8) : decode bytes < 256 ^ bytes.length := by
  have bounded := Nat.ofDigits_lt_base_pow_length (b := 256) (l := bytes.map UInt8.toNat)
    (by decide) (by
      intro digit member
      obtain ⟨byte, _, rfl⟩ := List.mem_map.mp member
      exact byte.toNat_lt)
  simpa only [decode, List.length_map] using bounded

/-- The later bytes are the higher ones. -/
theorem decode_append (first second : List UInt8) :
    decode (first ++ second) = decode first + 256 ^ first.length * decode second := by
  rw [decode, List.map_append, Nat.ofDigits_append, List.length_map]
  rfl

theorem decode_append_zeros (bytes : List UInt8) (count : Nat) :
    decode (bytes ++ List.replicate count 0) = decode bytes := by
  rw [decode, List.map_append, List.map_replicate]
  exact Nat.ofDigits_append_replicate_zero _

/-- Encoding restores every decoded byte list. -/
theorem encode_decode (bytes : List UInt8) : encode bytes.length (decode bytes) = bytes := by
  induction bytes with
  | nil => rfl
  | cons byte rest ih =>
      have small : byte.toNat < 256 := byte.toNat_lt
      rw [List.length_cons, encode, decode_cons]
      congr 1
      · apply UInt8.toNat_inj.mp
        rw [UInt8.toNat_ofNat']
        omega
      · rw [show (byte.toNat + 256 * decode rest) / 256 = decode rest by omega, ih]

/-- A 32-bit word occupies four bytes. -/
def encode32 (value : UInt32) : List UInt8 := encode 4 value.toNat

/-- Four bytes denote a 32-bit word. -/
def decode32 (bytes : List UInt8) : UInt32 := UInt32.ofNat (decode bytes)

@[simp] theorem length_encode32 (value : UInt32) : (encode32 value).length = 4 :=
  length_encode 4 value.toNat

@[simp] theorem decode32_encode32 (value : UInt32) : decode32 (encode32 value) = value := by
  have small : value.toNat < 2 ^ 32 := value.toNat_lt
  rw [decode32, encode32, decode_encode, Nat.mod_eq_of_lt (by simpa using small), UInt32.ofNat_toNat]

theorem toNat_decode32 (bytes : List UInt8) (four : bytes.length = 4) : (decode32 bytes).toNat = decode bytes := by
  have small := decode_lt bytes
  rw [four] at small
  rw [decode32, UInt32.toNat_ofNat', Nat.mod_eq_of_lt (by simpa using small)]

theorem encode32_decode32 (bytes : List UInt8) (four : bytes.length = 4) :
    encode32 (decode32 bytes) = bytes := by
  rw [encode32, toNat_decode32 bytes four, ← four, encode_decode]

end Foundation.LittleEndian
