import Mathlib.Tactic

namespace Foundation.Decimal

/-- A number is written with ASCII digits, and zero with one digit. -/
def decimal (value : Nat) : List UInt8 := (Nat.toDigits 10 value).map fun digit => UInt8.ofNat digit.toNat

/-- A digit survives its byte. -/
theorem ofNat_toNat_of_isDigit {digit : Char} (isDigit : digit.isDigit = true) :
    Char.ofNat (UInt8.ofNat digit.toNat).toNat = digit := by
  have small : digit.toNat ≤ 57 := by
    rw [Char.isDigit] at isDigit
    simp only [Bool.and_eq_true, decide_eq_true_eq] at isDigit
    exact isDigit.2
  rw [UInt8.toNat_ofNat', Nat.mod_eq_of_lt (by omega), Char.ofNat_toNat]

/-- Different numbers have different texts. -/
theorem decimal_injective : Function.Injective decimal := by
  intro first second equal
  have digits (value : Nat) : (decimal value).map (fun byte => Char.ofNat byte.toNat) = Nat.toDigits 10 value := by
    rw [decimal, List.map_map]
    conv_rhs => rw [← List.map_id (Nat.toDigits 10 value)]
    apply List.map_congr_left
    intro digit member
    exact ofNat_toNat_of_isDigit (Nat.isDigit_of_mem_toDigits (by decide) (by decide) member)
  have same : Nat.toDigits 10 first = Nat.toDigits 10 second := by rw [← digits, equal, digits]
  rw [← @Nat.ofDigitChars_ten_toDigits first, same, Nat.ofDigitChars_ten_toDigits]

theorem length_decimal_le {value width : Nat} (positive : 0 < width) (small : value < 10 ^ width) :
    (decimal value).length ≤ width := by
  rw [decimal, List.length_map]
  exact (Nat.length_toDigits_le_iff (by decide) positive).mpr small

end Foundation.Decimal
