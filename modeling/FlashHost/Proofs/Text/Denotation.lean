import FlashHost.Proofs.Text.Numeral
import Mathlib.Data.List.Forall2
import Mathlib.Data.Nat.Digits.Defs

/-!
# What a numeral denotes

A numeral is one digit or more of its radix, in either case, and its value is the
sum of its digits at their places. This is what reading accepts and what writing
gives, and neither leading zeros nor the case of letters change it.
-/

set_option autoImplicit false

namespace FlashHost.Numeral

/-- Whether a character is the digit of value `d`: the usual one, or its capital. -/
def Digit (radix : Nat) (c : Char) (d : Nat) : Prop :=
  d < radix ∧ (c = Nat.digitChar d ∨ c = (Nat.digitChar d).toUpper)

/-- Whether characters are a numeral of value `n`, most significant digit first. -/
def Denotes (radix : Nat) (cs : List Char) (n : Nat) : Prop :=
  cs ≠ [] ∧ ∃ digits, List.Forall₂ (Digit radix) cs digits ∧ Nat.ofDigits radix digits.reverse = n

/-- Whether a numeral is another with some of its letters written as capitals. -/
def Recased (written cs : List Char) : Prop :=
  List.Forall₂ (fun capital c => capital = c ∨ capital = c.toUpper) written cs

variable {radix : Nat}

/-- The sixteen digits: ten decimal ones, then letters in either case. -/
theorem digitChar_eq_ofNat {d : Nat} (small : d < 16) :
    (d < 10 → Nat.digitChar d = Char.ofNat (48 + d)) ∧
    (10 ≤ d → Nat.digitChar d = Char.ofNat (87 + d) ∧
      (Nat.digitChar d).toUpper = Char.ofNat (55 + d)) := by
  revert d
  decide

private theorem digit_of_digit? {c : Char} {d : Nat} (base : radix ≤ 16)
    (read : digit? radix c = some d) : Digit radix c d := by
  obtain ⟨found, small⟩ := Option.filter_eq_some_iff.mp read
  have small : d < radix := of_decide_eq_true small
  have digits := digitChar_eq_ofNat (Nat.lt_of_lt_of_le small base)
  have code {k : Nat} (eq : c.toNat = k) : c = Char.ofNat k := by rw [← eq, Char.ofNat_toNat]
  refine ⟨small, ?_⟩
  split at found
  next range =>
    have low : 48 ≤ c.toNat := range.1
    have high : c.toNat ≤ 57 := range.2
    have eq : c.toNat - 48 = d := Option.some.inj found
    rw [digits.1 (by omega)]
    exact .inl (code (by omega))
  split at found
  next range =>
    have low : 97 ≤ c.toNat := range.1
    have eq : c.toNat - 97 + 10 = d := Option.some.inj found
    rw [(digits.2 (by omega)).1]
    exact .inl (code (by omega))
  split at found
  next range =>
    have low : 65 ≤ c.toNat := range.1
    have eq : c.toNat - 65 + 10 = d := Option.some.inj found
    rw [(digits.2 (by omega)).2]
    exact .inr (code (by omega))
  · cases found

private theorem digit?_digitChar {d : Nat} (small : d < 16) :
    digit? 16 (Nat.digitChar d) = some d ∧ digit? 16 (Nat.digitChar d).toUpper = some d := by
  revert d
  decide

theorem digit?_eq_some_iff {c : Char} {d : Nat} (base : radix ≤ 16) :
    digit? radix c = some d ↔ Digit radix c d := by
  refine ⟨digit_of_digit? base, ?_⟩
  rintro ⟨small, written⟩
  have read : digit? 16 c = some d := by
    obtain ⟨lower, upper⟩ := digit?_digitChar (Nat.lt_of_lt_of_le small base)
    rcases written with rfl | rfl
    · exact lower
    · exact upper
  obtain ⟨found, -⟩ := Option.filter_eq_some_iff.mp read
  exact Option.filter_eq_some_iff.mpr ⟨found, decide_eq_true small⟩

private theorem extend?_eq_some_iff (base : radix ≤ 16) {cs : List Char} {value n : Nat} :
    extend? radix value cs = some n ↔ ∃ digits, List.Forall₂ (Digit radix) cs digits ∧
      Nat.ofDigits radix digits.reverse + value * radix ^ cs.length = n := by
  induction cs generalizing value with
  | nil =>
      rw [extend?, Option.some.injEq]
      simp [List.forall₂_nil_left_iff]
  | cons c cs ih =>
      rw [extend?]
      constructor
      · intro read
        cases digit : digit? radix c with
        | none => simp [digit] at read
        | some d =>
            rw [digit] at read
            obtain ⟨digits, each, total⟩ := ih.mp read
            refine ⟨d :: digits, .cons ((digit?_eq_some_iff base).mp digit) each, ?_⟩
            rw [List.reverse_cons, Nat.ofDigits_append, Nat.ofDigits_singleton, ← total,
              List.length_reverse, ← each.length_eq, List.length_cons, Nat.pow_succ]
            ring
      · rintro ⟨_, each, total⟩
        cases each with
        | cons digit each =>
            rw [(digit?_eq_some_iff base).mpr digit]
            refine ih.mpr ⟨_, each, ?_⟩
            rw [List.reverse_cons, Nat.ofDigits_append, Nat.ofDigits_singleton,
              List.length_reverse, ← each.length_eq, List.length_cons, Nat.pow_succ] at total
            rw [← total]
            ring

/-- A numeral is read as its value, and nothing else is read. -/
theorem value?_eq_some_iff (base : radix ≤ 16) {cs : List Char} {n : Nat} :
    value? radix cs = some n ↔ Denotes radix cs n := by
  cases cs with
  | nil => simp [value?, Denotes]
  | cons c cs => simp [value?, Denotes, extend?_eq_some_iff base]

theorem Denotes.unique {cs : List Char} {n m : Nat} (base : radix ≤ 16)
    (first : Denotes radix cs n) (second : Denotes radix cs m) : n = m := by
  rw [← value?_eq_some_iff base] at first second
  exact Option.some.inj (first.symm.trans second)

/-! ## Writing -/

private theorem exists_digits_fixed (base : 0 < radix) (width n : Nat) :
    ∃ digits, List.Forall₂ (Digit radix) (fixed radix width n) digits ∧
      Nat.ofDigits radix digits.reverse = n % radix ^ width := by
  induction width generalizing n with
  | zero => exact ⟨[], .nil, by rw [Nat.pow_zero, Nat.mod_one]; rfl⟩
  | succ width ih =>
      obtain ⟨digits, each, total⟩ := ih (n / radix)
      refine ⟨digits ++ [n % radix], ?_, ?_⟩
      · exact List.rel_append each (.cons ⟨Nat.mod_lt _ base, .inl rfl⟩ .nil)
      · rw [List.reverse_append, List.reverse_singleton, List.singleton_append, Nat.ofDigits_cons,
          total, Nat.pow_succ', Nat.mod_mul]

theorem denotes_fixed {width n : Nat} (base : 0 < radix) (small : n < radix ^ (width + 1)) :
    Denotes radix (fixed radix (width + 1) n) n := by
  obtain ⟨digits, each, total⟩ := exists_digits_fixed base (width + 1) n
  rw [Nat.mod_eq_of_lt small] at total
  exact ⟨by simp [fixed], digits, each, total⟩

/-- The usual digits of a number denote it. -/
theorem denotes_toDigits (base : 1 < radix) (n : Nat) : Denotes radix (Nat.toDigits radix n) n := by
  have some : 0 < (Nat.toDigits radix n).length := Nat.length_toDigits_pos
  obtain ⟨width, size⟩ := Nat.exists_eq_succ_of_ne_zero (Nat.ne_of_gt some)
  have small : n < radix ^ (width + 1) :=
    (Nat.length_toDigits_le_iff base (Nat.succ_pos width)).mp (Nat.le_of_eq size)
  have padded := fixed_eq_leftpad base small
  rw [List.leftpad, size, Nat.sub_self, List.replicate_zero, List.nil_append] at padded
  rw [← padded]
  exact denotes_fixed (Nat.zero_lt_of_lt base) small

private theorem digitChar_of_mem_fixed (base : 0 < radix) (width n : Nat) :
    ∀ c ∈ fixed radix width n, ∃ d < radix, c = Nat.digitChar d := by
  induction width generalizing n with
  | zero => exact List.forall_mem_nil _
  | succ width ih =>
      rw [fixed, List.forall_mem_append, List.forall_mem_singleton]
      exact ⟨ih _, _, Nat.mod_lt _ base, rfl⟩

theorem hexDigit_of_mem_fixed (width n : Nat) :
    ∀ c ∈ fixed 16 width n, c ∈ "0123456789abcdef".toList := by
  intro c member
  obtain ⟨d, small, rfl⟩ := digitChar_of_mem_fixed (by decide) width n c member
  clear member
  revert d
  decide

/-! ## Other forms of a numeral -/

theorem Denotes.zeros {cs : List Char} {n : Nat} (denotes : Denotes radix cs n) (base : 0 < radix)
    (count : Nat) : Denotes radix (List.replicate count '0' ++ cs) n := by
  induction count with
  | zero => exact denotes
  | succ count ih =>
      obtain ⟨-, digits, each, total⟩ := ih
      refine ⟨by simp [List.replicate_succ], 0 :: digits, .cons ⟨base, .inl rfl⟩ each, ?_⟩
      rw [List.reverse_cons, Nat.ofDigits_append_zero, total]

theorem Recased.refl (cs : List Char) : Recased cs cs :=
  List.forall₂_same.mpr fun _ _ => .inl rfl

private theorem toUpper_toUpper_digitChar {d : Nat} (small : d < 16) :
    (Nat.digitChar d).toUpper.toUpper = (Nat.digitChar d).toUpper := by
  revert d
  decide

theorem Digit.recased {capital c : Char} {d : Nat} (digit : Digit radix c d) (base : radix ≤ 16)
    (recased : capital = c ∨ capital = c.toUpper) : Digit radix capital d := by
  obtain ⟨small, written⟩ := digit
  refine ⟨small, ?_⟩
  rcases recased with rfl | rfl
  · exact written
  · rcases written with rfl | rfl
    · exact .inr rfl
    · exact .inr (toUpper_toUpper_digitChar (Nat.lt_of_lt_of_le small base))

theorem Denotes.recased {written cs : List Char} {n : Nat} (denotes : Denotes radix cs n)
    (base : radix ≤ 16) (recased : Recased written cs) : Denotes radix written n := by
  obtain ⟨nonempty, digits, each, total⟩ := denotes
  refine ⟨?_, digits, ?_, total⟩
  · rintro rfl
    exact nonempty (List.forall₂_nil_left_iff.mp recased)
  · clear nonempty total
    induction recased generalizing digits with
    | nil => exact each
    | cons capital _ ih =>
        cases each with
        | cons digit each => exact .cons (digit.recased base capital) (ih _ each)

theorem Denotes.digit_of_mem {cs : List Char} {n : Nat} (denotes : Denotes radix cs n) :
    ∀ c ∈ cs, ∃ d, Digit radix c d := by
  obtain ⟨-, digits, each, -⟩ := denotes
  induction each with
  | nil => exact List.forall_mem_nil _
  | cons digit _ ih => exact List.forall_mem_cons.mpr ⟨⟨_, digit⟩, ih⟩

end FlashHost.Numeral
