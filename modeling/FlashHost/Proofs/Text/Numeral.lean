import FlashHost.Text.Numeral
import Mathlib.Algebra.Group.Nat.Defs

/-!
# Numerals of fixed width

Writing a number with a fixed number of digits gives its usual digits after enough
zeros, as long as it has room. Hexadecimal digits are one byte each.
-/

set_option autoImplicit false

namespace FlashHost.Numeral

private theorem fixed_zero (radix width : Nat) : fixed radix width 0 = List.replicate width '0' := by
  induction width with
  | zero => rfl
  | succ width ih =>
      rw [fixed, Nat.zero_div, ih, Nat.zero_mod, List.replicate_succ']
      rfl

/-- A number that fits is written with its usual digits after enough zeros. -/
theorem fixed_eq_leftpad {radix width n : Nat} (base : 1 < radix)
    (small : n < radix ^ (width + 1)) :
    fixed radix (width + 1) n = (Nat.toDigits radix n).leftpad (width + 1) '0' := by
  induction width generalizing n with
  | zero =>
      have digit : n < radix := by simpa using small
      simp [fixed, Nat.toDigits_of_lt_base digit, Nat.mod_eq_of_lt digit]
  | succ width ih =>
      rw [fixed]
      by_cases digit : n < radix
      · rw [Nat.div_eq_of_lt digit, Nat.mod_eq_of_lt digit, fixed_zero,
          Nat.toDigits_of_lt_base digit]
        simp
      · have quotient : n / radix < radix ^ (width + 1) :=
          Nat.div_lt_of_lt_mul (by rwa [Nat.pow_succ'] at small)
        rw [ih quotient, Nat.toDigits_of_base_le base (Nat.le_of_not_lt digit)]
        simp [List.leftpad]

private theorem utf8Size_digitChar {digit : Nat} (small : digit < 16) :
    (Nat.digitChar digit).utf8Size = 1 := by
  revert digit
  decide

@[simp] theorem utf8ByteSize_hex (width n : Nat) : (hex width n).utf8ByteSize = width := by
  unfold hex
  induction width generalizing n with
  | zero => rfl
  | succ width ih =>
      have digit := utf8Size_digitChar (Nat.mod_lt n (y := 16) (by decide))
      simp [fixed, String.ofList_append, ih, digit]

end FlashHost.Numeral
