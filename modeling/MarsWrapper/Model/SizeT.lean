import Mathlib.Tactic

namespace MarsWrapper

/-- The build decides the width of `size_t`. -/
inductive SizeT where
  | bits32
  | bits64
  deriving DecidableEq

namespace SizeT

def bits : SizeT → Nat
  | .bits32 => 32
  | .bits64 => 64

/-- A `size_t` sum keeps its low bits. -/
def wrap (width : SizeT) (value : Nat) : Nat := value % 2 ^ width.bits

/-- The conversion of an `int` to `size_t` extends its sign. -/
def ofInt (width : SizeT) (value : Int) : Nat := (value % 2 ^ width.bits).toNat

/-- A sum that fits 32 bits is exact in both builds. -/
theorem wrap_of_lt (width : SizeT) {value : Nat} (small : value < 2 ^ 32) : width.wrap value = value := by
  cases width <;> exact Nat.mod_eq_of_lt (by simp only [bits]; omega)

/-- The truncation to `uint32_t` forgets the width of the sum. -/
theorem wrap_mod (width : SizeT) (value : Nat) : width.wrap value % 2 ^ 32 = value % 2 ^ 32 := by
  cases width <;> simp only [wrap, bits] <;> omega

theorem ofInt_natCast (width : SizeT) {value : Nat} (small : value < 2 ^ 32) : width.ofInt value = value := by
  cases width <;> simp only [ofInt, bits] <;> omega

/-- Both builds agree on the low 32 bits. -/
theorem ofInt_mod (width : SizeT) (value : Int) : (width.ofInt value : Int) % 2 ^ 32 = value % 2 ^ 32 := by
  cases width <;> simp only [ofInt, bits] <;> omega

/-- The truncation to `uint32_t` forgets how the sign was extended. -/
theorem ofInt_eq_ofNat (width : SizeT) (value : Int) : UInt32.ofInt value = UInt32.ofNat (width.ofInt value) := by
  have low := width.ofInt_mod value
  rw [UInt32.ofInt, ← UInt32.toNat_inj, UInt32.toNat_ofNat', UInt32.toNat_ofNat']
  omega

end SizeT

/-- The cast of an unsigned value to `int` keeps its low 32 bits. -/
def toInt (value : Nat) : Int := Int.bmod value (2 ^ 32)

theorem toInt_of_lt {value : Nat} (small : value < 2 ^ 31) : toInt value = value := by
  unfold toInt
  rw [Int.bmod_def]
  omega

/-- The upper half of the 32-bit values becomes negative. -/
theorem toInt_of_ge {value : Nat} (high : 2 ^ 31 ≤ value) (small : value < 2 ^ 32) :
    toInt value = (value : Int) - 2 ^ 32 := by
  unfold toInt
  rw [Int.bmod_def]
  omega

theorem toInt_mod (value : Nat) : toInt value % 2 ^ 32 = (value % 2 ^ 32 : Nat) := by
  unfold toInt
  rw [Int.bmod_def]
  split <;> omega

end MarsWrapper
