import FlashHost.Proofs.Text.Blank
import FlashHost.Proofs.Text.Denotation
import FlashHost.Proofs.Text.Utf8
import FlashHost.Protocol.Response

/-!
# The format of response packets

A packet is a status and a text. Three statuses carry the text itself; the text of
the fourth is a size below `2 ^ 32`, between blanks and perhaps behind a plus sign.
Decoding accepts these packets and no others.
-/

set_option autoImplicit false

namespace FlashHost.Response

open Numeral (Denotes Digit)
open Text (Blank)

-- Decoding compares in this way, whatever other ways there are.
attribute [local instance] decidableStatus

/-- The statuses whose text is carried as it is. -/
inductive TextStatus where
  | okay
  | fail
  | info
deriving DecidableEq

namespace TextStatus

def word : TextStatus → String
  | okay => "OKAY"
  | fail => "FAIL"
  | info => "INFO"

def response : TextStatus → String → Response
  | okay => .okay
  | fail => .fail
  | info => .info

def packet (status : TextStatus) (text : String) : ByteArray :=
  status.word.toUTF8 ++ text.toUTF8

end TextStatus

inductive Invites : List Char → Nat → Prop where
  | plain {before digits after size} : Blank before → Denotes 16 digits size → Blank after →
      size < 2 ^ 32 → Invites (before ++ digits ++ after) size
  | signed {before digits after size} : Blank before → Denotes 16 digits size → Blank after →
      size < 2 ^ 32 → Invites (before ++ '+' :: digits ++ after) size

private theorem printed_digit {c : Char} {d : Nat} (digit : Digit 16 c d) : Text.isBlank c = false := by
  obtain ⟨small, written⟩ := digit
  have each : Text.isBlank (Nat.digitChar d) = false ∧
      Text.isBlank (Nat.digitChar d).toUpper = false := by
    clear written
    revert d
    decide
  rcases written with rfl | rfl
  · exact each.1
  · exact each.2

private theorem ne_plus_of_digit {c : Char} {d : Nat} (digit : Digit 16 c d) : c ≠ '+' := by
  obtain ⟨small, written⟩ := digit
  have each : Nat.digitChar d ≠ '+' ∧ (Nat.digitChar d).toUpper ≠ '+' := by
    clear written
    revert d
    decide
  rcases written with rfl | rfl
  · exact each.1
  · exact each.2

theorem printed_of_denotes {digits : List Char} {size : Nat} (denotes : Denotes 16 digits size) :
    ∀ c ∈ digits, Text.isBlank c = false := by
  intro c member
  obtain ⟨d, digit⟩ := denotes.digit_of_mem c member
  exact printed_digit digit

theorem value?_filter {digits : List Char} {size : Nat} :
    (Numeral.value? 16 digits).filter (· < sizeLimit) = some size ↔
      Denotes 16 digits size ∧ size < 2 ^ 32 := by
  rw [Option.filter_eq_some_iff, Numeral.value?_eq_some_iff (Nat.le_refl 16), decide_eq_true_iff]
  rfl

theorem size?_eq_some_iff {text : List Char} {size : Nat} :
    size? text = some size ↔ Invites text size := by
  constructor
  · intro read
    obtain ⟨before, after, blank, blankAfter, eq⟩ := Text.exists_blanks_trim text
    rw [size?] at read
    obtain ⟨denotes, small⟩ := value?_filter.mp read
    split at denotes
    next digits signed =>
      rw [eq, signed]
      exact .signed blank denotes blankAfter small
    next =>
      rw [eq]
      exact .plain blank denotes blankAfter small
  · intro invites
    rw [size?]
    cases invites with
    | plain blank denotes blankAfter small =>
        rw [Text.trim_between blank blankAfter (printed_of_denotes denotes)]
        refine value?_filter.mpr ⟨?_, small⟩
        split
        next digits =>
          obtain ⟨d, digit⟩ := denotes.digit_of_mem '+' List.mem_cons_self
          exact (ne_plus_of_digit digit rfl).elim
        next => exact denotes
    | signed blank denotes blankAfter small =>
        rw [Text.trim_between blank blankAfter]
        · exact value?_filter.mpr ⟨denotes, small⟩
        · exact List.forall_mem_cons.mpr ⟨by decide, printed_of_denotes denotes⟩

/-- The format of packets: what each byte string stands for. -/
inductive Decodes : ByteArray → Except ProtocolFault Response → Prop where
  | text {status : TextStatus} {rest text} : ReadsAs rest text →
      Decodes (status.word.toUTF8 ++ rest) (.ok (status.response text))
  | data {rest text size} : ReadsAs rest text → Invites text.toList size →
      Decodes ("DATA".toUTF8 ++ rest) (.ok (.data size))
  | badSize {rest text} : ReadsAs rest text → (∀ size, ¬ Invites text.toList size) →
      Decodes ("DATA".toUTF8 ++ rest) (.error (.invalidDataSize text))
  | unknown {status rest text} :
      status.size = 4 → (∀ known : TextStatus, status ≠ known.word.toUTF8) →
      status ≠ "DATA".toUTF8 → ReadsAs status text →
      Decodes (status ++ rest) (.error (.unknownStatus text))
  | short {packet} : packet.size < 4 → Decodes packet (.error (.shortResponse packet.size))

/-- Decoding looks at the status, and at the text that follows it. -/
theorem parse_append {status : ByteArray} (whole : status.size = 4) (rest : ByteArray) :
    parse (status ++ rest) =
      if status = "OKAY".toUTF8 then .ok (.okay (textOfBytes rest))
      else if status = "FAIL".toUTF8 then .ok (.fail (textOfBytes rest))
      else if status = "INFO".toUTF8 then .ok (.info (textOfBytes rest))
      else if status = "DATA".toUTF8 then
        match size? (textOfBytes rest).toList with
        | some size => .ok (.data size)
        | none => .error (.invalidDataSize (textOfBytes rest))
      else .error (.unknownStatus (textOfBytes status)) := by
  have total : (status ++ rest).size = statusSize + rest.size := by
    rw [ByteArray.size_append, whole, statusSize]
  have long : ¬ (status ++ rest).size < statusSize := by omega
  have front : (status ++ rest).extract 0 statusSize = status :=
    ByteArray.extract_append_eq_left whole.symm
  have back : (status ++ rest).extract statusSize (status ++ rest).size = rest :=
    ByteArray.extract_append_eq_right whole.symm (by rw [total, whole, statusSize])
  have decoded : parse (status ++ rest) = _ := if_neg long
  rw [front, back] at decoded
  exact decoded

theorem parse_text (status : TextStatus) (rest : ByteArray) :
    parse (status.word.toUTF8 ++ rest) = .ok (status.response (textOfBytes rest)) := by
  cases status
  · exact (parse_append rfl rest).trans (if_pos rfl)
  · exact (parse_append rfl rest).trans ((if_neg (by decide)).trans (if_pos rfl))
  · exact (parse_append rfl rest).trans
      ((if_neg (by decide)).trans ((if_neg (by decide)).trans (if_pos rfl)))

theorem parse_data (rest : ByteArray) :
    parse ("DATA".toUTF8 ++ rest) =
      match size? (textOfBytes rest).toList with
      | some size => .ok (.data size)
      | none => .error (.invalidDataSize (textOfBytes rest)) := by
  rw [parse_append rfl, if_neg (by decide), if_neg (by decide), if_neg (by decide), if_pos rfl]

theorem parse_unknown {status : ByteArray} (whole : status.size = 4)
    (noText : ∀ known : TextStatus, status ≠ known.word.toUTF8) (noData : status ≠ "DATA".toUTF8)
    (rest : ByteArray) :
    parse (status ++ rest) = .error (.unknownStatus (textOfBytes status)) := by
  have okay : status ≠ "OKAY".toUTF8 := noText .okay
  have fail : status ≠ "FAIL".toUTF8 := noText .fail
  have info : status ≠ "INFO".toUTF8 := noText .info
  rw [parse_append whole, if_neg okay, if_neg fail, if_neg info, if_neg noData]

theorem parse_short {packet : ByteArray} (short : packet.size < 4) :
    parse packet = .error (.shortResponse packet.size) :=
  if_pos short

private theorem Decodes.parse_eq {packet : ByteArray} {result : Except ProtocolFault Response}
    (decodes : Decodes packet result) : parse packet = result := by
  cases decodes with
  | text reads => rw [parse_text, readsAs_iff.mp reads]
  | data reads invites =>
      rw [parse_data, readsAs_iff.mp reads, size?_eq_some_iff.mpr invites]
  | badSize reads none =>
      rw [parse_data, readsAs_iff.mp reads]
      cases read : size? _ with
      | none => rfl
      | some size => exact (none size (size?_eq_some_iff.mp read)).elim
  | unknown whole noText noData reads =>
      rw [parse_unknown whole noText noData, readsAs_iff.mp reads]
  | short short => exact parse_short short

private theorem decodes_status (status rest : ByteArray) (whole : status.size = 4) :
    Decodes (status ++ rest) (parse (status ++ rest)) := by
  have reads {bytes : ByteArray} : ReadsAs bytes (textOfBytes bytes) := readsAs_iff.mpr rfl
  by_cases known : ∃ text : TextStatus, status = text.word.toUTF8
  · obtain ⟨text, rfl⟩ := known
    rw [parse_text]
    exact .text reads
  by_cases data : status = "DATA".toUTF8
  · subst data
    rw [parse_data]
    cases read : size? (textOfBytes rest).toList with
    | some size => exact .data reads (size?_eq_some_iff.mp read)
    | none =>
        refine .badSize reads fun size invites => ?_
        rw [size?_eq_some_iff.mpr invites] at read
        cases read
  · rw [parse_unknown whole (not_exists.mp known) data]
    exact .unknown whole (not_exists.mp known) data reads

private theorem decodes_parse (packet : ByteArray) : Decodes packet (parse packet) := by
  by_cases short : packet.size < 4
  · rw [parse_short short]
    exact .short short
  · have long : 4 ≤ packet.size := Nat.le_of_not_lt short
    have split : packet.extract 0 4 ++ packet.extract 4 packet.size = packet := by
      rw [ByteArray.extract_append_extract, Nat.min_eq_left (Nat.zero_le 4), Nat.max_eq_right long,
        ByteArray.extract_zero_size]
    have whole : (packet.extract 0 4).size = 4 := by
      rw [ByteArray.size_extract]
      omega
    rw [← split]
    exact decodes_status _ _ whole

/-- Decoding follows the format, and gives back every text that a device sends with a
status. -/
theorem parse_follows_format :
    (∀ packet result, parse packet = result ↔ Decodes packet result) ∧
    (∀ (status : TextStatus) (text : String),
      parse (status.packet text) = .ok (status.response text)) ∧
    Function.Injective fun packet : TextStatus × String => parse (packet.1.packet packet.2) := by
  have exact (status : TextStatus) (text : String) :
      parse (status.packet text) = .ok (status.response text) := by
    rw [TextStatus.packet, parse_text, textOfBytes_toUTF8]
  refine ⟨?_, exact, ?_⟩
  · intro packet result
    constructor
    · rintro rfl
      exact decodes_parse packet
    · exact Decodes.parse_eq
  · rintro ⟨status, text⟩ ⟨other, more⟩ same
    dsimp only at same
    rw [exact, exact] at same
    cases status <;> cases other <;> cases same <;> rfl

end FlashHost.Response
