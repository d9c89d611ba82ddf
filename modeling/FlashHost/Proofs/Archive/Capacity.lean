import FlashHost.Archive
import Mathlib.Algebra.Group.Nat.Defs
import Mathlib.Data.Nat.Basic
import Mathlib.Order.MinMax

/-!
# The size of a buffer

The capacity for a declared size is a sum that stops at the greatest word. It is computed as
two sums that each stop there, which comes to the same, and in words it is the same as in
numbers. Of two sizes the greater one has no smaller capacity, and every size but the greatest
word has a capacity beyond itself.
-/

set_option autoImplicit false

namespace FlashHost.Archive

/-- To stop at the greatest size twice is to stop there once. -/
theorem saturatingAdd_saturatingAdd (first second third : Nat) :
    saturatingAdd (saturatingAdd first second) third =
      min (first + second + third) sizeLimit := by
  have absorbed : min (sizeLimit + third) sizeLimit = sizeLimit :=
    Nat.min_eq_right (Nat.le_add_right _ _)
  calc
    min (min (first + second) sizeLimit + third) sizeLimit
    _ = min (min (first + second + third) (sizeLimit + third)) sizeLimit := by
      rw [Nat.add_min_add_right]
    _ = min (first + second + third) sizeLimit := by rw [Nat.min_assoc, absorbed]

theorem capacity_eq_min (size : Nat) : capacity size = min (size + size / 1000 + 1) sizeLimit :=
  saturatingAdd_saturatingAdd _ _ _

private theorem monotone_capacity : Monotone capacity := by
  intro size greater le
  have thousandth : size / 1000 ≤ greater / 1000 := Nat.div_le_div_right le
  rw [capacity_eq_min, capacity_eq_min]
  exact min_le_min_right _ (by omega)

theorem lt_capacity_iff {size : Nat} : size < capacity size ↔ size < sizeLimit := by
  have grows : size < size + size / 1000 + 1 := by omega
  rw [capacity_eq_min, Nat.lt_min, and_iff_right grows]

/-! ## In words -/

/-- The sum of two words, or the greatest word if the sum wraps around. -/
def addWords (first second : UInt64) : UInt64 :=
  if first + second < first then UInt64.ofNat sizeLimit else first + second

def wordCapacity (size : UInt64) : UInt64 :=
  addWords (addWords size (size / 1000)) 1

theorem toNat_le_sizeLimit (word : UInt64) : word.toNat ≤ sizeLimit :=
  Nat.le_of_lt_succ word.toNat_lt

/-- A sum of words is less than its first word if, and only if, it wraps around. -/
theorem add_lt_left_iff {first second : UInt64} :
    first + second < first ↔ sizeLimit < first.toNat + second.toNat := by
  have firstLe := toNat_le_sizeLimit first
  have secondLe := toNat_le_sizeLimit second
  rw [UInt64.lt_iff_toNat_lt, UInt64.toNat_add]
  simp only [sizeLimit] at firstLe secondLe ⊢
  omega

theorem toNat_addWords (first second : UInt64) :
    (addWords first second).toNat = saturatingAdd first.toNat second.toNat := by
  unfold addWords saturatingAdd
  split
  case isTrue wraps =>
    rw [Nat.min_eq_right (Nat.le_of_lt (add_lt_left_iff.mp wraps))]
    rfl
  case isFalse exact =>
    have within : first.toNat + second.toNat ≤ sizeLimit := by
      rwa [add_lt_left_iff, Nat.not_lt] at exact
    rw [Nat.min_eq_left within, UInt64.toNat_add]
    exact Nat.mod_eq_of_lt (Nat.lt_succ_of_le within)

private theorem toNat_wordCapacity (size : UInt64) : (wordCapacity size).toNat = capacity size.toNat := by
  rw [wordCapacity, toNat_addWords, toNat_addWords, UInt64.toNat_div]
  rfl

/-- The capacity is the same in words, where each of its sums stops at the greatest one, as in
numbers, where it stops there once. It never falls as the size grows, and is beyond the size
unless that is the greatest word. -/
theorem capacity_leaves_room :
    (∀ size : UInt64, (wordCapacity size).toNat = capacity size.toNat) ∧
    (∀ size, capacity size = min (size + size / 1000 + 1) (2 ^ 64 - 1)) ∧
    Monotone capacity ∧
    ∀ size, size < capacity size ↔ size < 2 ^ 64 - 1 :=
  ⟨toNat_wordCapacity, capacity_eq_min, monotone_capacity, fun _ => lt_capacity_iff⟩

end FlashHost.Archive
