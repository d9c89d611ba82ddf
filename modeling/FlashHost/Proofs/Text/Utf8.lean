import FlashHost.Text.Utf8
import Mathlib.Data.Nat.Find

/-!
# Which text a byte string is read as

Reading is described by the encodings of characters alone: a complete encoding is
its character, and bytes that begin one and go no further are one replacement.
The decoder, which knows only ranges of the next byte, reads exactly this text.
-/

set_option autoImplicit false

namespace FlashHost.Utf8

/-- These bytes are the first of some character's, perhaps all of them. -/
def Begins (bytes : List UInt8) : Prop :=
  ∃ c, bytes <+: String.utf8EncodeChar c

private theorem Begins.of_prefix {front bytes : List UInt8} (begins : Begins bytes)
    (start : front <+: bytes) : Begins front := by
  obtain ⟨c, rest⟩ := begins
  exact ⟨c, start.trans rest⟩

/-- These bytes, before `rest`, begin a character as far as any does and complete
none, or are one byte that begins no character. -/
structure Broken (bad rest : List UInt8) : Prop where
  nonempty : bad ≠ []
  incomplete : ∀ c, ¬ String.utf8EncodeChar c <+: bad ++ rest
  begun : Begins bad ∨ bad.length = 1
  longest : ∀ front, front <+: bad ++ rest → Begins front → front.length ≤ bad.length

/-- How bytes are read as text: each character from its encoding, and one
replacement for bytes that are none. -/
inductive Reads : List UInt8 → List Char → Prop where
  | nil : Reads [] []
  | char {c rest text} : Reads rest text → Reads (String.utf8EncodeChar c ++ rest) (c :: text)
  | replaced {bad rest text} :
      Broken bad rest → Reads rest text → Reads (bad ++ rest) (replacement :: text)

/-- Whether a byte continues a character, where the first byte allows any that does. -/
def IsTail (byte : UInt8) : Prop :=
  0x80 ≤ byte.toNat ∧ byte.toNat ≤ 0xBF

/-- The forms of an encoding. The second byte is bounded where a shorter encoding
exists, at the surrogates and at the last code point. -/
inductive Encoding : List UInt8 → Prop where
  | one {byte} : byte.toNat < 0x80 → Encoding [byte]
  | two {byte second} : 0xC2 ≤ byte.toNat → byte.toNat ≤ 0xDF → IsTail second →
      Encoding [byte, second]
  | three {byte second third} : 0xE0 ≤ byte.toNat → byte.toNat ≤ 0xEF →
      (byte.toNat = 0xE0 → 0xA0 ≤ second.toNat) → (byte.toNat = 0xED → second.toNat ≤ 0x9F) →
      IsTail second → IsTail third → Encoding [byte, second, third]
  | four {byte second third fourth} : 0xF0 ≤ byte.toNat → byte.toNat ≤ 0xF4 →
      (byte.toNat = 0xF0 → 0x90 ≤ second.toNat) → (byte.toNat = 0xF4 → second.toNat ≤ 0x8F) →
      IsTail second → IsTail third → IsTail fourth → Encoding [byte, second, third, fourth]

namespace Pending

def Fits (pending : Pending) : List UInt8 → Prop
  | [] => False
  | next :: others => others.length + 1 = pending.owed ∧
      pending.low ≤ next.toNat ∧ next.toNat ≤ pending.high ∧ ∀ byte ∈ others, IsTail byte

def value (bits : Nat) (bytes : List UInt8) : Nat :=
  bytes.foldl (fun bits byte => bits * 64 + byte.toNat % 64) bits

/-- What the decoder knows of a character once `front` is read: the bytes it would
complete the character with are those that do. -/
structure Follows (pending : Pending) (front : List UInt8) : Prop where
  owes : 0 < pending.owed
  completes : ∀ tail, pending.Fits tail →
    String.utf8EncodeChar (Char.ofNat (value pending.bits tail)) = front ++ tail
  fits : ∀ c tail, String.utf8EncodeChar c = front ++ tail → pending.Fits tail

end Pending

/-! ## Encodings -/

theorem toNat_ofNat {value : Nat} (valid : value.isValidChar) :
    (Char.ofNat value).val.toNat = value := by
  rw [Char.ofNat, dif_pos valid]
  rfl

theorem ofNat_eq_iff {value : Nat} {byte : UInt8} (small : value < 256) :
    UInt8.ofNat value = byte ↔ value = byte.toNat := by
  rw [← UInt8.toNat_inj, UInt8.toNat_ofNat']
  omega

private theorem encode_one {byte : UInt8} (small : byte.toNat < 0x80) :
    String.utf8EncodeChar (Char.ofNat byte.toNat) = [byte] := by
  have valid : byte.toNat.isValidChar := .inl (by omega)
  simp only [String.utf8EncodeChar, toNat_ofNat valid]
  rw [if_pos (by omega), UInt8.ofNat_toNat]

private theorem encode_two {byte second : UInt8} (low : 0xC2 ≤ byte.toNat) (high : byte.toNat ≤ 0xDF)
    (tail : IsTail second) :
    String.utf8EncodeChar (Char.ofNat (Pending.value (byte.toNat - 0xC0) [second])) =
      [byte, second] := by
  obtain ⟨least, most⟩ := tail
  simp only [Pending.value, List.foldl]
  generalize total : (byte.toNat - 0xC0) * 64 + second.toNat % 64 = value
  have valid : value.isValidChar := .inl (by omega)
  simp only [String.utf8EncodeChar, toNat_ofNat valid]
  rw [if_neg (by omega), if_pos (by omega)]
  simp only [List.cons.injEq, and_true]
  rw [ofNat_eq_iff (by omega), ofNat_eq_iff (by omega)]
  omega

private theorem encode_three {byte second third : UInt8} (low : 0xE0 ≤ byte.toNat)
    (high : byte.toNat ≤ 0xEF) (long : byte.toNat = 0xE0 → 0xA0 ≤ second.toNat)
    (scalar : byte.toNat = 0xED → second.toNat ≤ 0x9F) (tail : IsTail second)
    (last : IsTail third) :
    String.utf8EncodeChar (Char.ofNat (Pending.value (byte.toNat - 0xE0) [second, third])) =
      [byte, second, third] := by
  obtain ⟨least, most⟩ := tail
  obtain ⟨lastLeast, lastMost⟩ := last
  simp only [Pending.value, List.foldl]
  generalize total : ((byte.toNat - 0xE0) * 64 + second.toNat % 64) * 64 + third.toNat % 64 = value
  have valid : value.isValidChar := by
    rw [Nat.isValidChar]
    omega
  simp only [String.utf8EncodeChar, toNat_ofNat valid]
  rw [if_neg (by omega), if_neg (by omega), if_pos (by omega)]
  simp only [List.cons.injEq, and_true]
  rw [ofNat_eq_iff (by omega), ofNat_eq_iff (by omega), ofNat_eq_iff (by omega)]
  omega

private theorem encode_four {byte second third fourth : UInt8} (low : 0xF0 ≤ byte.toNat)
    (high : byte.toNat ≤ 0xF4) (long : byte.toNat = 0xF0 → 0x90 ≤ second.toNat)
    (scalar : byte.toNat = 0xF4 → second.toNat ≤ 0x8F) (tail : IsTail second)
    (inner : IsTail third) (last : IsTail fourth) :
    String.utf8EncodeChar
        (Char.ofNat (Pending.value (byte.toNat - 0xF0) [second, third, fourth])) =
      [byte, second, third, fourth] := by
  obtain ⟨least, most⟩ := tail
  obtain ⟨innerLeast, innerMost⟩ := inner
  obtain ⟨lastLeast, lastMost⟩ := last
  simp only [Pending.value, List.foldl]
  generalize total : (((byte.toNat - 0xF0) * 64 + second.toNat % 64) * 64 + third.toNat % 64) * 64 +
    fourth.toNat % 64 = value
  have valid : value.isValidChar := by
    rw [Nat.isValidChar]
    omega
  simp only [String.utf8EncodeChar, toNat_ofNat valid]
  rw [if_neg (by omega), if_neg (by omega), if_neg (by omega)]
  simp only [List.cons.injEq, and_true]
  rw [ofNat_eq_iff (by omega), ofNat_eq_iff (by omega), ofNat_eq_iff (by omega),
    ofNat_eq_iff (by omega)]
  omega

theorem encoding_utf8EncodeChar (c : Char) : Encoding (String.utf8EncodeChar c) := by
  have valid : c.val.toNat < 0xD800 ∨ 0xDFFF < c.val.toNat ∧ c.val.toNat < 0x110000 := c.valid
  simp only [String.utf8EncodeChar]
  generalize c.val.toNat = value at valid ⊢
  split
  · apply Encoding.one
    rw [UInt8.toNat_ofNat']
    omega
  split
  · apply Encoding.two <;> simp only [IsTail, UInt8.toNat_ofNat'] <;> omega
  split
  · apply Encoding.three <;> simp only [IsTail, UInt8.toNat_ofNat'] <;> omega
  · apply Encoding.four <;> simp only [IsTail, UInt8.toNat_ofNat'] <;> omega

/-- No encoding of a character begins with another's. -/
theorem eq_of_utf8EncodeChar_append {c d : Char} {rest others : List UInt8}
    (eq : String.utf8EncodeChar c ++ rest = String.utf8EncodeChar d ++ others) : c = d := by
  have left := @ByteArray.utf8DecodeChar?_utf8EncodeChar_append rest.toByteArray c
  have right := @ByteArray.utf8DecodeChar?_utf8EncodeChar_append others.toByteArray d
  rw [← List.toByteArray_append, eq, List.toByteArray_append, right] at left
  exact Option.some.inj left.symm

private theorem utf8EncodeChar_injective : Function.Injective String.utf8EncodeChar := by
  intro c d eq
  exact eq_of_utf8EncodeChar_append (congrArg (· ++ []) eq)

/-! ## One byte -/

namespace Pending

private theorem follows_two {byte : UInt8} (low : 0xC2 ≤ byte.toNat) (high : byte.toNat ≤ 0xDF) :
    Follows ⟨1, 0x80, 0xBF, byte.toNat - 0xC0⟩ [byte] where
  owes := Nat.one_pos
  completes tail fit := by
    match tail, fit with
    | [second], ⟨_, least, most, _⟩ => exact encode_two low high ⟨least, most⟩
  fits c tail eq := by
    have encoding := encoding_utf8EncodeChar c
    rw [eq, List.singleton_append] at encoding
    cases encoding with
    | one => omega
    | two _ _ second => exact ⟨rfl, second.1, second.2, List.forall_mem_nil _⟩
    | three => omega
    | four => omega

theorem follows_three {byte : UInt8} {least most bits : Nat} (low : 0xE0 ≤ byte.toNat)
    (high : byte.toNat ≤ 0xEF) (eq : bits = byte.toNat - 0xE0)
    (window : ∀ second, least ≤ second ∧ second ≤ most ↔
      (byte.toNat = 0xE0 → 0xA0 ≤ second) ∧ (byte.toNat = 0xED → second ≤ 0x9F) ∧
        0x80 ≤ second ∧ second ≤ 0xBF) :
    Follows ⟨2, least, most, bits⟩ [byte] where
  owes := Nat.two_pos
  completes tail fit := by
    match tail, fit with
    | [second, third], ⟨_, atLeast, atMost, tails⟩ =>
      obtain ⟨long, scalar, second⟩ := (window second.toNat).mp ⟨atLeast, atMost⟩
      rw [List.forall_mem_singleton] at tails
      rw [eq]
      exact encode_three low high long scalar second tails
  fits c tail same := by
    have encoding := encoding_utf8EncodeChar c
    rw [same, List.singleton_append] at encoding
    cases encoding with
    | one => omega
    | two => omega
    | @three _ second third _ _ long scalar isSecond isThird =>
        obtain ⟨atLeast, atMost⟩ := (window second.toNat).mpr ⟨long, scalar, isSecond⟩
        exact ⟨rfl, atLeast, atMost, List.forall_mem_singleton.mpr isThird⟩
    | four => omega

theorem follows_four {byte : UInt8} {least most bits : Nat} (low : 0xF0 ≤ byte.toNat)
    (high : byte.toNat ≤ 0xF4) (eq : bits = byte.toNat - 0xF0)
    (window : ∀ second, least ≤ second ∧ second ≤ most ↔
      (byte.toNat = 0xF0 → 0x90 ≤ second) ∧ (byte.toNat = 0xF4 → second ≤ 0x8F) ∧
        0x80 ≤ second ∧ second ≤ 0xBF) :
    Follows ⟨3, least, most, bits⟩ [byte] where
  owes := Nat.succ_pos 2
  completes tail fit := by
    match tail, fit with
    | [second, third, fourth], ⟨_, atLeast, atMost, tails⟩ =>
      obtain ⟨long, scalar, second⟩ := (window second.toNat).mp ⟨atLeast, atMost⟩
      rw [List.forall_mem_cons, List.forall_mem_singleton] at tails
      rw [eq]
      exact encode_four low high long scalar second tails.1 tails.2
  fits c tail same := by
    have encoding := encoding_utf8EncodeChar c
    rw [same, List.singleton_append] at encoding
    cases encoding with
    | one => omega
    | two => omega
    | three => omega
    | @four _ second third fourth _ _ long scalar isSecond isThird isFourth =>
        obtain ⟨atLeast, atMost⟩ := (window second.toNat).mpr ⟨long, scalar, isSecond⟩
        exact ⟨rfl, atLeast, atMost,
          List.forall_mem_cons.mpr ⟨isThird, List.forall_mem_singleton.mpr isFourth⟩⟩

end Pending

/-- Between characters a byte is a character, begins one, or does neither. -/
theorem first_cases (byte : UInt8) :
    (first byte.toNat = ([Char.ofNat byte.toNat], none) ∧
      String.utf8EncodeChar (Char.ofNat byte.toNat) = [byte]) ∨
    (first byte.toNat = ([replacement], none) ∧ ¬ Begins [byte]) ∨
    ∃ pending, first byte.toNat = ([], some pending) ∧ pending.Follows [byte] := by
  have begins {tail c} (begun : [byte] ++ tail = String.utf8EncodeChar c) :
      0x80 ≤ byte.toNat → 0xC2 ≤ byte.toNat ∧ byte.toNat ≤ 0xF4 := by
    have encoding := encoding_utf8EncodeChar c
    rw [← begun, List.singleton_append] at encoding
    intro large
    cases encoding <;> omega
  unfold first
  split
  next small => exact .inl ⟨rfl, encode_one small⟩
  split
  next stray => exact .inr (.inl ⟨rfl, fun ⟨c, tail, begun⟩ => by have := begins begun; omega⟩)
  split
  next => exact .inr (.inr ⟨_, rfl, Pending.follows_two (by omega) (by omega)⟩)
  split
  next =>
    exact .inr (.inr ⟨_, rfl, Pending.follows_three (by omega) (by omega) (by omega)
      (fun second => by omega)⟩)
  split
  next =>
    exact .inr (.inr ⟨_, rfl, Pending.follows_three (by omega) (by omega) (by omega)
      (fun second => by omega)⟩)
  split
  next =>
    exact .inr (.inr ⟨_, rfl, Pending.follows_three (by omega) (by omega) (by omega)
      (fun second => by omega)⟩)
  split
  next =>
    exact .inr (.inr ⟨_, rfl, Pending.follows_four (by omega) (by omega) (by omega)
      (fun second => by omega)⟩)
  split
  next =>
    exact .inr (.inr ⟨_, rfl, Pending.follows_four (by omega) (by omega) (by omega)
      (fun second => by omega)⟩)
  split
  next =>
    exact .inr (.inr ⟨_, rfl, Pending.follows_four (by omega) (by omega) (by omega)
      (fun second => by omega)⟩)
  next => exact .inr (.inl ⟨rfl, fun ⟨c, tail, begun⟩ => by have := begins begun; omega⟩)

variable {pending : Pending} {front : List UInt8} {byte : UInt8}

namespace Pending

def next (pending : Pending) (byte : UInt8) : Pending :=
  ⟨pending.owed - 1, 0x80, 0xBF, pending.bits * 64 + byte.toNat % 64⟩

def Admits (pending : Pending) (byte : UInt8) : Prop :=
  pending.low ≤ byte.toNat ∧ byte.toNat ≤ pending.high

theorem Fits.admits {tail : List UInt8} (fits : pending.Fits (byte :: tail)) :
    pending.Admits byte :=
  ⟨fits.2.1, fits.2.2.1⟩

/-- What completes the character after a byte of it is the rest of what completes it. -/
theorem fits_next (more : 1 < pending.owed) (admits : pending.Admits byte) (tail : List UInt8) :
    (pending.next byte).Fits tail ↔ pending.Fits (byte :: tail) := by
  cases tail with
  | nil =>
      simp only [Fits, List.length_nil, false_iff, not_and]
      omega
  | cons second others =>
      simp only [Fits, next, List.length_cons, List.forall_mem_cons, IsTail, admits.1, admits.2,
        true_and, and_assoc]
      constructor
      · rintro ⟨owed, tails⟩
        exact ⟨by omega, tails⟩
      · rintro ⟨owed, tails⟩
        exact ⟨by omega, tails⟩

theorem Follows.next (follows : pending.Follows front) (more : 1 < pending.owed)
    (admits : pending.Admits byte) : (pending.next byte).Follows (front ++ [byte]) where
  owes := Nat.sub_pos_of_lt more
  completes tail fits := by
    rw [List.append_assoc, List.singleton_append]
    exact follows.completes (byte :: tail) ((fits_next more admits tail).mp fits)
  fits c tail eq := by
    rw [List.append_assoc, List.singleton_append] at eq
    exact (fits_next more admits tail).mpr (follows.fits c (byte :: tail) eq)

private theorem fits_last (last : pending.owed = 1) (admits : pending.Admits byte) :
    pending.Fits [byte] :=
  ⟨last.symm, admits.1, admits.2, List.forall_mem_nil _⟩

/-- A character that is owed a byte can always be completed after one it admits. -/
theorem exists_fits (owed : 0 < pending.owed) (admits : pending.Admits byte) :
    ∃ tail, pending.Fits (byte :: tail) := by
  refine ⟨List.replicate (pending.owed - 1) 0x80, ?_, admits.1, admits.2, ?_⟩
  · rw [List.length_replicate]
    omega
  · intro continuation member
    rw [List.eq_of_mem_replicate member]
    exact ⟨by decide, by decide⟩

theorem Follows.begins (follows : pending.Follows front)
    (admits : pending.Admits byte) : Begins (front ++ [byte]) := by
  obtain ⟨tail, fits⟩ := exists_fits follows.owes admits
  exact ⟨_, tail, by
    rw [follows.completes _ fits, List.append_assoc, List.singleton_append]⟩

end Pending

/-! ## Reading on -/

private theorem decodeFrom_last (last : pending.owed = 1) (admits : pending.Admits byte)
    (bytes : List UInt8) :
    decodeFrom (some pending) (byte :: bytes) =
      Char.ofNat (pending.bits * 64 + byte.toNat % 64) :: decode bytes := by
  simp only [Pending.Admits] at admits
  rw [decodeFrom, step, if_pos admits, if_pos (by omega)]
  rfl

theorem decodeFrom_more (more : 1 < pending.owed) (admits : pending.Admits byte)
    (bytes : List UInt8) :
    decodeFrom (some pending) (byte :: bytes) = decodeFrom (some (pending.next byte)) bytes := by
  simp only [Pending.Admits] at admits
  rw [decodeFrom, step, if_pos admits, if_neg (by omega)]
  rfl

private theorem decodeFrom_break (refuses : ¬ pending.Admits byte) (bytes : List UInt8) :
    decodeFrom (some pending) (byte :: bytes) = replacement :: decode (byte :: bytes) := by
  simp only [Pending.Admits] at refuses
  rw [decodeFrom, step, if_neg refuses]
  rfl

theorem decode_cons (byte : UInt8) (bytes : List UInt8) :
    decode (byte :: bytes) =
      (first byte.toNat).1 ++ decodeFrom (first byte.toNat).2 bytes :=
  rfl

private theorem decodeFrom_fits {tail : List UInt8} (fits : pending.Fits tail) (rest : List UInt8) :
    decodeFrom (some pending) (tail ++ rest) =
      Char.ofNat (Pending.value pending.bits tail) :: decode rest := by
  induction tail generalizing pending with
  | nil => exact fits.elim
  | cons byte tail ih =>
      have admits := fits.admits
      rw [List.cons_append]
      cases tail with
      | nil => exact decodeFrom_last fits.1.symm admits rest
      | cons second others =>
          have more : 1 < pending.owed := by
            have owed := fits.1
            rw [List.length_cons] at owed
            omega
          rw [decodeFrom_more more admits, ih ((Pending.fits_next more admits _).mpr fits)]
          rfl

theorem decode_char (c : Char) (rest : List UInt8) :
    decode (String.utf8EncodeChar c ++ rest) = c :: decode rest := by
  cases eq : String.utf8EncodeChar c with
  | nil => exact (String.utf8EncodeChar_ne_nil eq).elim
  | cons byte tail =>
      rw [List.cons_append, decode_cons]
      rcases first_cases byte with ⟨first, alone⟩ | ⟨-, stray⟩ | ⟨pending, first, follows⟩
      · obtain rfl : c = Char.ofNat byte.toNat := by
          have same : String.utf8EncodeChar c ++ [] =
              String.utf8EncodeChar (Char.ofNat byte.toNat) ++ tail := by
            rw [eq, alone, List.append_nil, List.singleton_append]
          exact eq_of_utf8EncodeChar_append same
        obtain rfl : tail = [] := by
          rw [alone] at eq
          exact (List.cons.inj eq).2.symm
        rw [first]
        rfl
      · exact (stray ⟨c, tail, by rw [eq]; rfl⟩).elim
      · have fits := follows.fits c tail eq
        rw [first, decodeFrom_fits fits,
          utf8EncodeChar_injective ((follows.completes tail fits).trans eq.symm)]
        rfl

/-- A character that is broken after its first bytes is read as one replacement. -/
theorem decodeFrom_broken {more rest : List UInt8} (follows : pending.Follows front)
    (nonempty : front ≠ []) (broken : Broken (front ++ more) rest) :
    decodeFrom (some pending) (more ++ rest) = replacement :: decode rest := by
  induction more generalizing pending front with
  | nil =>
      rw [List.append_nil] at broken
      cases rest with
      | nil => rfl
      | cons byte rest =>
          -- With a byte that is admitted, more bytes would begin a character.
          refine decodeFrom_break (fun admits => ?_) rest
          have short := broken.longest (front ++ [byte]) ⟨rest, by simp⟩ (follows.begins admits)
          rw [List.length_append] at short
          exact absurd short (by simp)
  | cons byte more ih =>
      -- A byte that begins no character stands alone, and here there are two at least.
      obtain ⟨c, tail, eq⟩ : Begins (front ++ byte :: more) := by
        refine broken.begun.resolve_right fun single => ?_
        have := List.length_pos_iff.mpr nonempty
        rw [List.length_append, List.length_cons] at single
        omega
      have fits := follows.fits c (byte :: (more ++ tail)) (by simp [← eq])
      have admits := fits.admits
      rw [List.cons_append]
      by_cases several : 1 < pending.owed
      · rw [decodeFrom_more several admits]
        exact ih (follows.next several admits) (by simp) (by simpa using broken)
      · have last : pending.owed = 1 := by
          have := follows.owes
          omega
        have encoded := follows.completes [byte] (Pending.fits_last last admits)
        exact (broken.incomplete _ ⟨more ++ rest, by rw [encoded]; simp⟩).elim

theorem decode_broken {bad rest : List UInt8} (broken : Broken bad rest) :
    decode (bad ++ rest) = replacement :: decode rest := by
  cases bad with
  | nil => exact (broken.nonempty rfl).elim
  | cons byte more =>
      rw [List.cons_append, decode_cons]
      rcases first_cases byte with ⟨-, alone⟩ | ⟨first, stray⟩ | ⟨pending, first, follows⟩
      · exact (broken.incomplete _ ⟨more ++ rest, by rw [alone]; rfl⟩).elim
      · obtain rfl : more = [] := by
          cases broken.begun with
          | inl begun => exact (stray (begun.of_prefix ⟨more, rfl⟩)).elim
          | inr single => exact List.length_eq_zero_iff.mp (Nat.succ_inj.mp single)
        rw [first]
        rfl
      · rw [first]
        exact decodeFrom_broken follows (List.cons_ne_nil _ _) broken

/-- Where no character is complete, some bytes are broken. -/
theorem exists_broken {bytes : List UInt8} (nonempty : bytes ≠ [])
    (incomplete : ∀ c, ¬ String.utf8EncodeChar c <+: bytes) :
    ∃ bad rest, bytes = bad ++ rest ∧ Broken bad rest := by
  classical
  -- As many bytes as begin a character are broken, or one if none do.
  let longest := Nat.findGreatest (fun count => Begins (bytes.take count)) bytes.length
  have bounded : longest ≤ bytes.length := Nat.findGreatest_le _
  have some := List.length_pos_iff.mpr nonempty
  refine ⟨bytes.take (max longest 1), bytes.drop (max longest 1), by simp, ?_, ?_, ?_, ?_⟩
  · simpa using nonempty
  · simpa using incomplete
  · by_cases begun : 1 ≤ longest
    · left
      rw [max_eq_left begun]
      have empty : Begins (bytes.take 0) := ⟨replacement, List.nil_prefix⟩
      exact @Nat.findGreatest_spec 0 (fun count => Begins (bytes.take count)) _ _ (Nat.zero_le _)
        empty
    · right
      rw [max_eq_right (by omega), List.length_take]
      omega
  · intro front start begun
    rw [List.take_append_drop] at start
    rw [List.length_take]
    have short := start.length_le
    have atMost : front.length ≤ longest :=
      Nat.le_findGreatest short (by rwa [← List.prefix_iff_eq_take.mp start])
    omega

private theorem Reads.decode_eq {bytes : List UInt8} {text : List Char} (reads : Reads bytes text) :
    decode bytes = text := by
  induction reads with
  | nil => rfl
  | char _ ih => rw [decode_char, ih]
  | replaced broken _ ih => rw [decode_broken broken, ih]

/-- Every byte string has a reading, the one the decoder finds. -/
theorem reads_decode (bytes : List UInt8) : Reads bytes (decode bytes) := by
  -- A step takes one byte to four, so the induction is on the length.
  induction bound : bytes.length using Nat.strong_induction_on generalizing bytes with
  | _ bound ih =>
    subst bound
    by_cases whole : ∃ c, String.utf8EncodeChar c <+: bytes
    · obtain ⟨c, rest, rfl⟩ := whole
      have some : 0 < (String.utf8EncodeChar c).length :=
        List.length_pos_iff.mpr String.utf8EncodeChar_ne_nil
      rw [decode_char]
      refine .char (ih _ ?_ rest rfl)
      rw [List.length_append]
      omega
    · rcases eq_or_ne bytes [] with rfl | nonempty
      · exact .nil
      · obtain ⟨bad, rest, rfl, broken⟩ := exists_broken nonempty (not_exists.mp whole)
        have some := List.length_pos_iff.mpr broken.nonempty
        rw [decode_broken broken]
        refine .replaced broken (ih _ ?_ rest rfl)
        rw [List.length_append]
        omega

private theorem reads_iff {bytes : List UInt8} {text : List Char} :
    Reads bytes text ↔ decode bytes = text :=
  ⟨Reads.decode_eq, fun eq => eq ▸ reads_decode bytes⟩

private theorem decode_flatMap (text : List Char) : decode (text.flatMap String.utf8EncodeChar) = text := by
  induction text with
  | nil => rfl
  | cons c text ih => rw [List.flatMap_cons, decode_char, ih]

end FlashHost.Utf8

namespace FlashHost

variable {bytes : ByteArray} {text : String}

def ReadsAs (bytes : ByteArray) (text : String) : Prop :=
  Utf8.Reads bytes.data.toList text.toList

theorem readsAs_iff : ReadsAs bytes text ↔ textOfBytes bytes = text := by
  rw [ReadsAs, Utf8.reads_iff, textOfBytes]
  constructor
  · intro eq
    rw [eq, String.ofList_toList]
  · rintro rfl
    rw [String.toList_ofList]

theorem textOfBytes_toUTF8 (text : String) : textOfBytes text.toUTF8 = text := by
  have bytes : text.toUTF8.data.toList = text.toList.flatMap String.utf8EncodeChar := by
    rw [String.toUTF8, ← String.utf8Encode_toList, List.utf8Encode, List.toList_data_toByteArray]
  rw [textOfBytes, bytes, Utf8.decode_flatMap, String.ofList_toList]

end FlashHost
