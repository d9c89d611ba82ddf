import FlashHost.Proofs.Text.Denotation
import FlashHost.VendorId

/-!
# How vendor ids are spelled

The spellings of a vendor id and no other texts are read as one: hexadecimal digits after
`0x`, octal digits after a zero, or decimal digits that do not begin with a zero. Padding with
zeros is limited to the first two notations, where there may be any number of them.
-/

set_option autoImplicit false

namespace FlashHost.VendorId

open Numeral (Denotes Digit Recased)

/-- The mark of a hexadecimal number after its zero. -/
def Mark (c : Char) : Prop :=
  c = 'x' ∨ c = 'X'

/-- Which texts are numbers, and of what value. -/
inductive Spells : List Char → Nat → Prop where
  | hexadecimal {mark digits n} :
      Mark mark → Denotes 16 digits n → Spells ('0' :: mark :: digits) n
  | octal {digits n} : Denotes 8 digits n → Spells ('0' :: digits) n
  | decimal {digits n} :
      digits = ['0'] ∨ digits.head? ≠ some '0' → Denotes 10 digits n → Spells digits n

/-- A digit is none of the marks of hexadecimal numbers. -/
theorem not_mark_of_digit {c : Char} {d : Nat} (digit : Digit 16 c d) : ¬ Mark c := by
  obtain ⟨small, written⟩ := digit
  have each : ¬ Mark (Nat.digitChar d) ∧ ¬ Mark (Nat.digitChar d).toUpper := by
    clear written
    simp only [Mark]
    revert d
    decide
  rcases written with rfl | rfl
  · exact each.1
  · exact each.2

private theorem radixOf_octal {c : Char} (plain : ¬ Mark c) (digits : List Char) :
    radixOf ('0' :: c :: digits) = (8, c :: digits) := by
  obtain ⟨small, capital⟩ := not_or.mp plain
  exact radixOf.eq_3 c digits small capital

private theorem radixOf_decimal {digits : List Char}
    (natural : digits = ['0'] ∨ digits.head? ≠ some '0') : radixOf digits = (10, digits) := by
  rcases natural with rfl | other
  · rfl
  · unfold radixOf
    split
    · exact absurd rfl other
    · exact absurd rfl other
    · exact absurd rfl other
    · rfl

theorem radixOf_le (text : List Char) : (radixOf text).1 ≤ 16 := by
  unfold radixOf
  split <;> simp

/-- The way in which a text starts settles its notation. -/
theorem spells_iff {text : List Char} {n : Nat} :
    Spells text n ↔ Denotes (radixOf text).1 (radixOf text).2 n := by
  constructor
  · intro spells
    cases spells with
    | hexadecimal marked denotes => rcases marked with rfl | rfl <;> exact denotes
    | @octal digits _ denotes =>
        cases digits with
        | nil => exact absurd rfl denotes.1
        | cons c digits =>
            obtain ⟨d, small, written⟩ := denotes.digit_of_mem c List.mem_cons_self
            have plain : ¬ Mark c := not_mark_of_digit ⟨by omega, written⟩
            rwa [radixOf_octal plain]
    | decimal natural denotes => rwa [radixOf_decimal natural]
  · intro denotes
    unfold radixOf at denotes
    split at denotes
    case h_1 => exact .hexadecimal (.inl rfl) denotes
    case h_2 => exact .hexadecimal (.inr rfl) denotes
    case h_3 => exact .octal denotes
    case h_4 octal =>
      refine .decimal ?_ denotes
      match text with
      | [] => exact .inr nofun
      | [c] =>
          by_cases zero : c = '0'
          · exact .inl (by rw [zero])
          · exact .inr (by simpa using zero)
      | c :: digit :: digits =>
          refine .inr fun zero => ?_
          obtain rfl : c = '0' := Option.some.inj zero
          exact octal digit digits rfl

theorem Spells.unique {text : List Char} {n m : Nat} (first : Spells text n)
    (second : Spells text m) : n = m :=
  (spells_iff.mp first).unique (radixOf_le text) (spells_iff.mp second)

theorem value?_eq_some_iff {text : List Char} {n : Nat} :
    value? text = some n ↔ Spells text n ∧ n < 2 ^ 16 := by
  rw [value?, Option.filter_eq_some_iff, Numeral.value?_eq_some_iff (radixOf_le text), ← spells_iff,
    decide_eq_true_iff]
  rfl

theorem parse_eq_ok_iff {text : String} {id : UInt16} :
    parse text = .ok id ↔ Spells text.toList id.toNat := by
  have whole : value? text.toList = some id.toNat ↔ Spells text.toList id.toNat :=
    value?_eq_some_iff.trans (and_iff_left id.toNat_lt)
  rw [← whole, parse]
  constructor
  · intro accepted
    split at accepted
    case h_1 value read =>
      obtain ⟨-, small⟩ := value?_eq_some_iff.mp read
      cases accepted
      rw [read, UInt16.toNat_ofNat_of_lt' small]
    case h_2 => cases accepted
  · intro read
    rw [read]
    exact congrArg Except.ok UInt16.ofNat_toNat

private theorem parse_eq_error_iff {text : String} {error : Error} :
    parse text = .error error ↔
      error = .invalidVendorId text ∧ ∀ n, Spells text.toList n → 2 ^ 16 ≤ n := by
  rw [parse]
  cases read : value? text.toList with
  | some value =>
      obtain ⟨spells, small⟩ := value?_eq_some_iff.mp read
      exact ⟨nofun, fun refused => absurd (refused.2 value spells) (Nat.not_le.mpr small)⟩
  | none =>
      have large (n : Nat) (spells : Spells text.toList n) : 2 ^ 16 ≤ n := by
        by_contra small
        rw [value?_eq_some_iff.mpr ⟨spells, Nat.not_le.mp small⟩] at read
        cases read
      constructor
      · rintro ⟨⟩
        exact ⟨rfl, large⟩
      · rintro ⟨rfl, -⟩
        rfl

/-! ## Ids in the usual digits -/

private theorem head?_toDigits {n : Nat} (positive : 0 < n) : (Nat.toDigits 10 n).head? ≠ some '0' := by
  induction n using Nat.strongRecOn with
  | ind n ih =>
      by_cases digit : n < 10
      · have each : ∀ n < 10, 0 < n → [Nat.digitChar n].head? ≠ some '0' := by decide
        rw [Nat.toDigits_of_lt_base digit]
        exact each n digit positive
      · have quotient : 0 < n / 10 := Nat.div_pos (Nat.le_of_not_lt digit) (by decide)
        have smaller := ih (n / 10) (Nat.div_lt_self positive (by decide)) quotient
        have some : Nat.toDigits 10 (n / 10) ≠ [] :=
          List.ne_nil_of_length_pos Nat.length_toDigits_pos
        rwa [Nat.toDigits_of_base_le (by decide) (Nat.le_of_not_lt digit),
          List.head?_append_of_ne_nil _ some]

private theorem spells_toDigits (n : Nat) : Spells (Nat.toDigits 10 n) n := by
  refine .decimal ?_ (Numeral.denotes_toDigits (by decide) n)
  rcases Nat.eq_zero_or_pos n with rfl | positive
  · exact .inl rfl
  · exact .inr (head?_toDigits positive)

/-- A text is a vendor id just if it is a number below `2 ^ 16` in one of the three notations.
Every id can be written in each of them, and where zeros may stand before it any number of
them may. -/
theorem parse_by_notation :
    (∀ text id, parse text = .ok id ↔ Spells text.toList id.toNat) ∧
    (∀ text error, parse text = .error error ↔
      error = .invalidVendorId text ∧ ∀ n, Spells text.toList n → 2 ^ 16 ≤ n) ∧
    (∀ text, (Error.invalidVendorId text).kind = .argument ∧
      (Error.invalidVendorId text).message = "invalid vendor id '" ++ text ++ "'") ∧
    (∀ text n m, Spells text n → Spells text m → n = m) ∧
    (∀ id : UInt16, parse (String.ofList (Nat.toDigits 10 id.toNat)) = .ok id) ∧
    (∀ (id : UInt16) (zeros : Nat),
      parse (String.ofList ('0' :: (List.replicate zeros '0' ++ Nat.toDigits 8 id.toNat))) =
        .ok id) ∧
    (∀ (id : UInt16) (zeros : Nat) (mark : Char) (digits : List Char), Mark mark →
      Recased digits (Nat.toDigits 16 id.toNat) →
      parse (String.ofList ('0' :: mark :: (List.replicate zeros '0' ++ digits))) = .ok id) := by
  have read {text : List Char} {id : UInt16} (spells : Spells text id.toNat) :
      parse (String.ofList text) = .ok id :=
    parse_eq_ok_iff.mpr (String.toList_ofList ▸ spells)
  refine ⟨fun _ _ => parse_eq_ok_iff, fun _ _ => parse_eq_error_iff, fun _ => ⟨rfl, rfl⟩,
    fun _ _ _ => Spells.unique, ?_, ?_, ?_⟩
  · intro id
    exact read (spells_toDigits id.toNat)
  · intro id zeros
    exact read (.octal ((Numeral.denotes_toDigits (by decide) id.toNat).zeros (by decide) zeros))
  · intro id zeros mark digits marked recased
    have denotes := (Numeral.denotes_toDigits (by decide) id.toNat).recased (by decide) recased
    exact read (.hexadecimal marked (denotes.zeros (by decide) zeros))

theorem parse_padded_capitals :
    Mark 'X' ∧ Recased ['F', 'f'] (Nat.toDigits 16 (255 : UInt16).toNat) ∧
      parse "0X00Ff" = .ok 255 := by
  have recased : Recased ['F', 'f'] (Nat.toDigits 16 (255 : UInt16).toNat) :=
    .cons (.inr rfl) (.cons (.inl rfl) .nil)
  have padded := parse_by_notation.2.2.2.2.2.2 255 2 'X' ['F', 'f'] (.inr rfl) recased
  exact ⟨.inr rfl, recased, padded⟩

end FlashHost.VendorId
