import FlashHost.Proofs.Protocol.Invariant
import FlashHost.Proofs.Usb.Slicing
import FlashHost.Proofs.Wire.Course

/-!
# How a payload is delivered

The pieces of a payload are written in order once just its size is invited, and each is
reported before the next. The first piece that is cut short ends the download, with an error
that says how much of the payload is gone.
-/

set_option autoImplicit false

namespace FlashHost

/-- A transport that reports no more bytes as written than it was handed. -/
def Transport.Honest {σ : Type} (transport : Transport σ) : Prop :=
  ∀ data device count, (transport.write data device).result = .ok count → count ≤ data.size

def Event.Honest : Event → Prop
  | .written data (.ok count) => count ≤ data.size
  | _ => True

def calls (events : List Event) : List Exchange :=
  events.filterMap Event.exchange?

def counted : List Exchange → Nat
  | [] => 0
  | .write _ (.ok count) :: exchanges => count + counted exchanges
  | _ :: exchanges => counted exchanges

/-- What comes of a payload after the command that announces it. -/
structure Delivers (payload : ByteArray) (steps : List Event) (result : Except Error Unit) :
    Prop where
  front : (written (calls steps)).flatMap octets <+: octets payload
  /-- Every piece is of `2 ^ 20` bytes, except for a shorter one with which the payload ends. -/
  pieces : ∀ earlier data later, written (calls steps) = earlier ++ data :: later →
    0 < data.size ∧ data.size ≤ 2 ^ 20 ∧
      (data.size < 2 ^ 20 → (earlier.flatMap octets).length + data.size = payload.size)
  empty : payload.size = 0 → written (calls steps) = []
  invited : ∀ before data taken after, steps = before ++ .written data taken :: after →
    finals (received (calls before)) = [.reply (.data payload.size)]
  reported : ∀ before data after, steps = before ++ .written data (.ok data.size) :: after →
    ∃ later, after =
      .progress (.transferProgress (counted (calls before) + data.size)) :: later
  reportedOnly : ∀ before count after,
    steps = before ++ .progress (.transferProgress count) :: after →
    ∃ earlier data, before = earlier ++ [.written data (.ok data.size)]
  /-- Nothing is done or reported after a piece that is cut short. -/
  cutShort : ∀ before data count after, steps = before ++ .written data (.ok count) :: after →
    count ≠ data.size →
    after = [] ∧ counted (calls steps) ≤ payload.size ∧
      result = .error (.transport (.payloadCutShort (counted (calls steps)) payload.size))
  delivered : result = .ok () →
    (written (calls steps)).flatMap octets = octets payload ∧
    (∀ data taken, .written data taken ∈ steps → taken = .ok data.size) ∧
    ∃ sending closing, steps = sending ++ closing ∧
      finals (received (calls sending)) = [.reply (.data payload.size)] ∧
      written (calls closing) = [] ∧ finals (received (calls closing)) = [.reply .okay]

/-- Events among which nothing is written and no piece is reported. -/
def Calm (events : List Event) : Prop :=
  ∀ event ∈ events, (∀ data taken, event ≠ .written data taken) ∧
    ∀ count, event ≠ .progress (.transferProgress count)

/-- Only what is invited is sent, and only what is sent whole is waited for. -/
inductive Delivery (payload : ByteArray) : List Event → Except Error Unit → Prop where
  | uninvited {opening error} : Calm opening → Delivery payload opening (.error error)
  | invited {opening sending closing sent result} :
      Calm opening → finals (received (calls opening)) = [.reply (.data payload.size)] →
      Sending payload 0 sending sent →
      (∀ error, sent = .error error → closing = [] ∧ result = .error error) →
      Calm closing →
      (result = .ok () → finals (received (calls closing)) = [.reply .okay]) →
      Delivery payload (opening ++ (sending ++ closing)) result

variable {payload : ByteArray} {number : Nat} {steps before after : List Event}
  {result : Except Error Unit}

@[simp] theorem calls_append (earlier later : List Event) :
    calls (earlier ++ later) = calls earlier ++ calls later :=
  List.filterMap_append

theorem counted_append (earlier later : List Exchange) :
    counted (earlier ++ later) = counted earlier + counted later := by
  induction earlier with
  | nil => exact (Nat.zero_add _).symm
  | cons call earlier ih =>
      cases call with
      | read outcome => exact ih
      | write data outcome =>
          cases outcome with
          | error fault => exact ih
          | ok count => rw [List.cons_append, counted, counted, ih, Nat.add_assoc]

private theorem counted_eq_zero {exchanges : List Exchange} (none : written exchanges = []) :
    counted exchanges = 0 := by
  induction exchanges with
  | nil => rfl
  | cons call exchanges ih =>
      cases call with
      | read outcome => exact ih none
      | write data outcome => cases none

/-- An element that is neither in the first nor in the last of three lists is in between. -/
theorem split_between {α : Type} {opening middle closing before after : List α} {element : α}
    (parts : opening ++ (middle ++ closing) = before ++ element :: after)
    (fresh : element ∉ opening) (beyond : element ∉ closing) :
    ∃ front back, before = opening ++ front ∧ middle = front ++ element :: back ∧
      after = back ++ closing := by
  have inside (front : List α) (rest : middle ++ closing = front ++ element :: after) :
      ∃ back, middle = front ++ element :: back ∧ after = back ++ closing := by
    obtain ⟨others, rfl, tail⟩ | ⟨others, rfl, tail⟩ := List.append_eq_append_iff.mp rest
    · exact absurd (tail ▸ List.mem_append_right _ List.mem_cons_self) beyond
    · obtain ⟨rfl, tail⟩ | ⟨back, rfl, tail⟩ := List.cons_eq_append_iff.mp tail
      · rw [List.nil_append] at tail
        exact absurd (tail ▸ List.mem_cons_self) beyond
      · exact ⟨back, rfl, (List.cons.inj tail).2⟩
  obtain ⟨front, rfl, rest⟩ | ⟨others, rfl, tail⟩ := List.append_eq_append_iff.mp parts
  · obtain ⟨back, same, behind⟩ := inside front rest
    exact ⟨front, back, rfl, same, behind⟩
  · obtain ⟨rfl, tail⟩ | ⟨back, rfl, -⟩ := List.cons_eq_append_iff.mp tail
    · obtain ⟨back, same, behind⟩ := inside [] tail.symm
      exact ⟨[], back, by rw [List.append_nil, List.append_nil], same, behind⟩
    · exact absurd (List.mem_append_right _ List.mem_cons_self) fresh

namespace Parcel

private theorem size_piece_eq (payload : ByteArray) (number : Nat) :
    (piece payload number).bytes.size =
      min ((number + 1) * 2 ^ 20) payload.size - number * 2 ^ 20 := by
  rw [bytes, ByteArray.size_extract]

theorem piece_bounds (more : number < count payload) :
    0 < (piece payload number).bytes.size ∧ (piece payload number).bytes.size ≤ 2 ^ 20 ∧
      number * 2 ^ 20 + (piece payload number).bytes.size ≤ payload.size ∧
      ((piece payload number).bytes.size < 2 ^ 20 →
        number * 2 ^ 20 + (piece payload number).bytes.size = payload.size) := by
  have within : number * 2 ^ 20 < payload.size := by
    have bound := (Nat.lt_div_iff_mul_lt (by decide)).mp more
    omega
  rw [size_piece_eq]
  omega

/-- The first pieces of a payload make up the front of it. -/
theorem flatMap_octets_pieces (payload : ByteArray) (number : Nat) :
    ((List.range number).map fun index => (piece payload index).bytes).flatMap octets =
      (octets payload).take (number * 2 ^ 20) := by
  induction number with
  | zero => simp
  | succ number ih =>
      rw [List.range_succ, List.map_append, List.flatMap_append, ih, Nat.succ_mul, List.take_add]
      congr 1
      rw [List.map_singleton, List.flatMap_singleton, bytes, octets_extract]
      congr 1
      omega

theorem take_octets_count (payload : ByteArray) :
    (octets payload).take (count payload * 2 ^ 20) = octets payload := by
  apply List.take_of_length_le
  have := (Nat.div_le_iff_le_mul_add_pred (show 0 < 2 ^ 20 by decide)).mp
    (Nat.le_refl (count payload))
  rw [length_octets]
  omega

/-- Each of the first pieces starts where those before it end. -/
theorem bounds_of_split {data : ByteArray} {earlier later : List ByteArray}
    (reached : number ≤ count payload)
    (parts : ((List.range number).map fun index => (piece payload index).bytes) =
      earlier ++ data :: later) :
    0 < data.size ∧ data.size ≤ 2 ^ 20 ∧
      (data.size < 2 ^ 20 → (earlier.flatMap octets).length + data.size = payload.size) := by
  obtain ⟨done, rest, range, rfl, own⟩ := List.map_eq_append_iff.mp parts
  obtain ⟨index, others, rfl, rfl, -⟩ := List.map_eq_cons_iff.mp own
  rw [List.range_eq_range'] at range
  obtain ⟨earlier, within, rfl, tail⟩ := List.range'_eq_append_iff.mp range
  obtain ⟨same, left, -⟩ := List.range'_eq_cons_iff.mp tail.symm
  rw [Nat.zero_add, Nat.mul_one] at same
  subst same
  have more : earlier < count payload := by omega
  have bounds := piece_bounds more
  rw [← List.range_eq_range', flatMap_octets_pieces, List.length_take, length_octets]
  omega

end Parcel

/-! ## Pieces that are sent -/

namespace Sending

theorem more {step : Event} (sending : Sending payload number (step :: steps) result) :
    number < Parcel.count payload := by
  cases sending <;> assumption

/-- From any piece on, the rest of the payload is sent. -/
theorem rest {data : ByteArray} {taken : Except TransportFault Nat}
    (sending : Sending payload number steps result)
    (parts : steps = before ++ .written data taken :: after) :
    ∃ index, number * 2 ^ 20 + counted (calls before) = index * 2 ^ 20 ∧
      received (calls before) = [] ∧
      Sending payload index (.written data taken :: after) result := by
  induction sending generalizing before with
  | done => simp at parts
  | unwritten more =>
      obtain ⟨rfl, same, rfl⟩ := eq_of_singleton_split parts
      cases same
      exact ⟨_, Nat.add_zero _, rfl, .unwritten more⟩
  | cutShort more cut =>
      obtain ⟨rfl, same, rfl⟩ := eq_of_singleton_split parts
      cases same
      exact ⟨_, Nat.add_zero _, rfl, .cutShort more cut⟩
  | @piece number steps result more sending ih =>
      cases before with
      | nil =>
          cases parts
          exact ⟨number, Nat.add_zero _, rfl, .piece more sending⟩
      | cons first before =>
          obtain ⟨rfl, tail⟩ := List.cons.inj parts
          cases before with
          | nil => cases tail
          | cons second before =>
              obtain ⟨rfl, others⟩ := List.cons.inj tail
              obtain ⟨index, total, silent, rest⟩ := ih others
              -- Another piece follows, so this one is not the short one at the end.
              have last : number + 1 < Parcel.count payload := by
                have := rest.more
                omega
              refine ⟨index, ?_, silent, rest⟩
              rw [Nat.succ_mul, Nat.add_assoc] at total
              exact (congrArg (fun size => number * 2 ^ 20 + (size + counted (calls before)))
                (Parcel.size_piece last)).trans total

private theorem after_whole {report : Progress} (sending : Sending payload number steps result)
    (parts : steps = before ++ .progress report :: after) :
    ∃ earlier data, before = earlier ++ [.written data (.ok data.size)] := by
  induction sending generalizing before with
  | done => simp at parts
  | unwritten => cases (eq_of_singleton_split parts).2.1
  | cutShort => cases (eq_of_singleton_split parts).2.1
  | @piece number steps result more _ ih =>
      cases before with
      | nil => cases parts
      | cons first before =>
          obtain ⟨rfl, tail⟩ := List.cons.inj parts
          cases before with
          | nil => exact ⟨[], _, rfl⟩
          | cons second before =>
              obtain ⟨earlier, data, rfl⟩ := ih (List.cons.inj tail).2
              exact ⟨_ :: second :: earlier, data, rfl⟩

/-- What is written are the next pieces in order, and all of them if the payload is sent. -/
theorem written_eq (sending : Sending payload number steps result)
    (reached : number ≤ Parcel.count payload) :
    ∃ left, number + left ≤ Parcel.count payload ∧
      written (calls steps) =
        (List.range' number left).map (fun index => (Parcel.piece payload index).bytes) ∧
      (result = .ok () → number + left = Parcel.count payload) := by
  induction sending with
  | done finished => exact ⟨0, reached, rfl, fun _ => Nat.le_antisymm reached finished⟩
  | unwritten more => exact ⟨1, more, rfl, nofun⟩
  | cutShort more _ => exact ⟨1, more, rfl, nofun⟩
  | @piece number steps result more _ ih =>
      obtain ⟨left, bound, same, whole⟩ := ih more
      refine ⟨left + 1, by omega, ?_, fun done => ?_⟩
      · rw [List.range'_succ, List.map_cons, ← same]
        rfl
      · have := whole done
        omega

private theorem received_eq (sending : Sending payload number steps result) :
    received (calls steps) = [] := by
  induction sending with
  | done | unwritten | cutShort => rfl
  | piece _ _ ih => exact ih

theorem whole (sending : Sending payload number steps result) (done : result = .ok ())
    {data : ByteArray} {taken : Except TransportFault Nat} (member : .written data taken ∈ steps) :
    taken = .ok data.size := by
  induction sending with
  | done => cases member
  | unwritten => cases done
  | cutShort => cases done
  | piece _ _ ih =>
      simp only [List.mem_cons, Event.written.injEq, reduceCtorEq, false_or] at member
      obtain ⟨rfl, rfl⟩ | member := member
      · rfl
      · exact ih done member

end Sending

/-! ## Around the pieces -/

theorem Calm.report (report : Progress) (other : ∀ count, report ≠ .transferProgress count) :
    Calm [.progress report] := by
  simpa [Calm] using other

theorem Calm.append {others : List Event} (calm : Calm steps) (too : Calm others) :
    Calm (steps ++ others) := by
  intro event member
  obtain member | member := List.mem_append.mp member
  · exact calm event member
  · exact too event member

theorem Calm.written_eq (calm : Calm steps) : written (calls steps) = [] := by
  induction steps with
  | nil => rfl
  | cons event steps ih =>
      have rest := ih fun other member => calm other (List.mem_cons_of_mem _ member)
      cases event with
      | written data taken => exact absurd rfl ((calm _ List.mem_cons_self).1 data taken)
      | _ => exact rest

theorem Calm.not_written (calm : Calm steps) (data : ByteArray)
    (taken : Except TransportFault Nat) : .written data taken ∉ steps :=
  fun member => (calm _ member).1 data taken rfl

theorem Calm.not_progress (calm : Calm steps) (count : Nat) :
    .progress (.transferProgress count) ∉ steps :=
  fun member => (calm _ member).2 count rfl

theorem Hearing.calm {result : Except Error Reply} (hearing : Hearing steps result) :
    Calm steps := by
  induction hearing with
  | last => simp [Calm]
  | info _ _ ih => simpa [Calm] using ih

theorem Hearing.finals_eq {result : Except Error Reply} (hearing : Hearing steps result)
    {reply : Reply} (done : result = .ok reply) :
    finals (received (calls steps)) = [.reply reply.due] := by
  induction hearing with
  | last settles =>
      cases settles with
      | misread => cases done
      | reply other parsed =>
          cases done
          have final := Reply.heard_eq parsed
          exact (finals_cons_final (by rw [final]; exact nofun) []).trans (by rw [final]; rfl)
  | @info packet text steps result parsed _ ih =>
      have silent : heard (.ok packet) = .info := by simp [heard, parsed]
      exact (finals_cons_info silent _).trans (ih done)

theorem Hearing.finals_append {result : Except Error Reply} (hearing : Hearing steps result)
    {reply : Reply} (done : result = .ok reply) (silent : received (calls after) = []) :
    finals (received (calls (steps ++ after))) = [.reply reply.due] := by
  rw [calls_append, received_append, silent, List.append_nil, hearing.finals_eq done]

/-- The course of a download, as far as the pieces of the payload go. -/
theorem Downloading.delivery (downloading : Downloading payload steps result) :
    ∃ taken rest,
      steps = .written (Protocol.downloadCommand payload.size).toUTF8 taken :: rest ∧
        Delivery payload rest result := by
  cases downloading with
  | unanswered asking =>
      cases asking with
      | unwritten => exact ⟨_, [], rfl, .uninvited nofun⟩
      | cutShort => exact ⟨_, [], rfl, .uninvited nofun⟩
      | whole hearing => exact ⟨_, _, rfl, .uninvited hearing.calm⟩
  | uninvited asking =>
      cases asking with
      | whole hearing => exact ⟨_, _, rfl, .uninvited hearing.calm⟩
  | mismatch asking =>
      cases asking with
      | whole hearing => exact ⟨_, _, rfl, .uninvited hearing.calm⟩
  | @broken _ sending error asking ended =>
      cases asking with
      | @whole opening _ hearing =>
          have delivery : Delivery payload (_ ++ (sending ++ [])) (.error error) :=
            .invited (hearing.calm.append (.report (.transferStarted payload.size) nofun))
              (hearing.finals_append rfl rfl) ended (fun _ same => ⟨rfl, same⟩) nofun nofun
          rw [List.append_nil, List.append_assoc] at delivery
          exact ⟨_, _, rfl, delivery⟩
  | @sent _ sending closing reply asking ended last =>
      cases asking with
      | @whole opening _ hearing =>
          have confirmed (done : confirmation reply = .ok ()) :
              finals (received (calls closing)) = [.reply .okay] := by
            cases reply with
            | error error => cases done
            | ok reply =>
                cases reply with
                | okay text => exact last.finals_eq rfl
                | data size => cases done
          have delivery : Delivery payload (_ ++ (sending ++ _)) (confirmation reply) :=
            .invited (hearing.calm.append (.report (.transferStarted payload.size) nofun))
              (hearing.finals_append rfl rfl) ended nofun
              ((Calm.report .transferDone nofun).append last.calm) confirmed
          rw [List.append_assoc] at delivery
          exact ⟨_, _, rfl, delivery⟩

namespace Delivery

/-- Where a piece is written, the pieces before it are written and the rest is to be sent. -/
theorem at_piece {data : ByteArray} {taken : Except TransportFault Nat}
    (delivery : Delivery payload steps result)
    (parts : steps = before ++ .written data taken :: after) :
    ∃ back closing sent, after = back ++ closing ∧
      finals (received (calls before)) = [.reply (.data payload.size)] ∧
      (∃ index, counted (calls before) = index * 2 ^ 20 ∧
        Sending payload index (.written data taken :: back) sent) ∧
      ∀ error, sent = .error error → closing = [] ∧ result = .error error := by
  cases delivery with
  | uninvited calm => exact absurd (by simp [parts]) (calm.not_written data taken)
  | invited calm asked sending broken calmAfter =>
      obtain ⟨front, back, rfl, same, rfl⟩ :=
        split_between parts (calm.not_written data taken) (calmAfter.not_written data taken)
      obtain ⟨index, total, silent, rest⟩ := sending.rest same
      refine ⟨back, _, _, rfl, ?_, ⟨index, ?_, rest⟩, broken⟩
      · rw [calls_append, received_append, silent, List.append_nil, asked]
      · rw [calls_append, counted_append, counted_eq_zero calm.written_eq]
        omega

private theorem at_report {count : Nat} (delivery : Delivery payload steps result)
    (parts : steps = before ++ .progress (.transferProgress count) :: after) :
    ∃ earlier data, before = earlier ++ [.written data (.ok data.size)] := by
  cases delivery with
  | uninvited calm => exact absurd (by simp [parts]) (calm.not_progress count)
  | invited calm _ sending _ calmAfter =>
      obtain ⟨front, back, rfl, same, -⟩ :=
        split_between parts (calm.not_progress count) (calmAfter.not_progress count)
      obtain ⟨earlier, data, rfl⟩ := sending.after_whole same
      exact ⟨_, data, (List.append_assoc ..).symm⟩

/-- What is written are the first pieces of the payload, and all of them if it is delivered. -/
theorem written_eq (delivery : Delivery payload steps result) :
    ∃ left ≤ Parcel.count payload,
      written (calls steps) =
        ((List.range left).map fun index => (Parcel.piece payload index).bytes) ∧
      (result = .ok () → left = Parcel.count payload) := by
  cases delivery with
  | uninvited calm => exact ⟨0, Nat.zero_le _, calm.written_eq, nofun⟩
  | @invited _ _ _ sent _ calm _ sending broken calmAfter _ =>
      obtain ⟨left, bound, same, whole⟩ := sending.written_eq (Nat.zero_le _)
      rw [Nat.zero_add] at bound whole
      refine ⟨left, bound, ?_, fun done => whole ?_⟩
      · rw [calls_append, calls_append, written_append, written_append, calm.written_eq,
          calmAfter.written_eq, List.nil_append, List.append_nil, same, List.range_eq_range']
      · cases sent with
        | ok => rfl
        | error error => cases done.symm.trans (broken error rfl).2

theorem front (delivery : Delivery payload steps result) :
    (written (calls steps)).flatMap octets <+: octets payload := by
  obtain ⟨left, -, same, -⟩ := delivery.written_eq
  rw [same, Parcel.flatMap_octets_pieces]
  exact List.take_prefix _ _

private theorem cut_short (delivery : Delivery payload steps result) {data : ByteArray} {count : Nat}
    (parts : steps = before ++ .written data (.ok count) :: after) (cut : count ≠ data.size) :
    after = [] ∧ (count ≤ data.size → counted (calls steps) ≤ payload.size) ∧
      result = .error (.transport (.payloadCutShort (counted (calls steps)) payload.size)) := by
  obtain ⟨back, closing, sent, rfl, -, ⟨index, total, sending⟩, broken⟩ := delivery.at_piece parts
  cases sending with
  | piece => exact absurd rfl cut
  | cutShort more =>
      -- This piece is the last of all that is counted.
      obtain ⟨rfl, rfl⟩ := broken _ rfl
      have reached : counted (calls steps) = index * 2 ^ 20 + count := by
        rw [parts, calls_append, counted_append, total]
        rfl
      have bounds := Parcel.piece_bounds more
      refine ⟨rfl, fun honest => by omega, ?_⟩
      rw [reached]

/-- A download goes well only if its payload is written whole and confirmed. -/
theorem confirmed (delivery : Delivery payload steps result) (done : result = .ok ()) :
    (∀ data taken, .written data taken ∈ steps → taken = .ok data.size) ∧
    ∃ sending closing, steps = sending ++ closing ∧
      finals (received (calls sending)) = [.reply (.data payload.size)] ∧
      written (calls closing) = [] ∧ finals (received (calls closing)) = [.reply .okay] := by
  cases delivery with
  | uninvited => cases done
  | @invited opening middle closing sent _ calm asked sending broken calmAfter confirmed =>
      cases sent with
      | error error => cases done.symm.trans (broken error rfl).2
      | ok =>
          constructor
          · intro data taken member
            simp only [List.mem_append, calm.not_written, calmAfter.not_written, false_or,
              or_false] at member
            exact sending.whole rfl member
          · refine ⟨opening ++ middle, closing, (List.append_assoc ..).symm, ?_,
              calmAfter.written_eq, confirmed done⟩
            rw [calls_append, received_append, sending.received_eq, List.append_nil, asked]

private theorem delivers (delivery : Delivery payload steps result)
    (honest : ∀ event ∈ steps, event.Honest) :
    Delivers payload steps result := by
  obtain ⟨left, bound, same, complete⟩ := delivery.written_eq
  refine ⟨delivery.front, ?_, ?_, ?_, ?_, ?_, ?_, ?_⟩
  · intro earlier data later parts
    exact Parcel.bounds_of_split bound (same.symm.trans parts)
  · intro empty
    cases left with
    | zero => exact same
    | succ left =>
        have bounds := Parcel.piece_bounds (Nat.zero_lt_of_lt bound)
        omega
  · intro before data taken after parts
    obtain ⟨_, _, _, -, asked, -⟩ := delivery.at_piece parts
    exact asked
  · intro before data after parts
    obtain ⟨back, closing, sent, rfl, -, ⟨index, total, sending⟩, -⟩ := delivery.at_piece parts
    rw [total]
    cases sending with
    | cutShort more cut => exact absurd rfl cut
    | piece more sending => exact ⟨_, rfl⟩
  · intro before count after parts
    exact delivery.at_report parts
  · intro before data count after parts cut
    obtain ⟨ended, bounded, failed⟩ := delivery.cut_short parts cut
    exact ⟨ended, bounded (honest (.written data (.ok count)) (by simp [parts])), failed⟩
  · intro done
    refine ⟨?_, delivery.confirmed done⟩
    rw [same, complete done, Parcel.flatMap_octets_pieces, Parcel.take_octets_count]

end Delivery

/-! ## Honest transports -/

theorem Usb.Connection.honest : Usb.Connection.transport.Honest :=
  fun data connection _ done => (slices_write data connection).count_le done

namespace Protocol

open Session

variable {σ : Type}

/-- An honest transport is honest all through a session. -/
theorem honest_invariant {transport : Transport σ} (honest : transport.Honest) :
    CommandInvariant transport fun _ session =>
      ∀ device, ∀ event ∈ (session device).1.events, event.Honest where
  pure _ _ := List.forall_mem_nil _
  fail _ _ := List.forall_mem_nil _
  note _ _ := List.forall_mem_singleton.mpr trivial
  transfer _ _ _ := List.forall_mem_singleton.mpr trivial
  write data := by
    intro device
    refine List.forall_mem_append.mpr ⟨?_, List.forall_mem_singleton.mpr ?_⟩
    · intro event member
      obtain ⟨transfer, -, rfl⟩ := List.mem_map.mp member
      trivial
    · cases taken : (transport.write data device).result with
      | error fault => trivial
      | ok count => exact honest data device count taken
  readReply := by
    intro device event member
    have calm := (shows_readReply transport device).calm
    cases event with
    | written data taken => exact absurd (List.mem_filter.mpr ⟨member, rfl⟩) (calm.not_written _ _)
    | _ => trivial
  bind := forall_events_bind

/-- A payload is delivered to any device whose transport is honest, or it is said why not. -/
theorem download_delivers {transport : Transport σ} (honest : transport.Honest)
    {payload : ByteArray} (small : payload.size < 2 ^ 32) (device : σ) :
    let outcome := (download transport payload device).1
    ∃ taken steps,
      acts outcome.events = .written (downloadCommand payload.size).toUTF8 taken :: steps ∧
        Delivers payload steps outcome.result := by
  obtain ⟨taken, steps, parts, delivery⟩ := (shows_download transport small device).delivery
  refine ⟨taken, steps, parts, delivery.delivers fun event member => ?_⟩
  have present : event ∈ acts (download transport payload device).1.events := by
    rw [parts]
    exact List.mem_cons_of_mem _ member
  exact (honest_invariant honest).download payload device event (List.mem_of_mem_filter present)

theorem download_delivers_part :
    let payload : ByteArray := ⟨#[1, 2, 3]⟩
    let connection : Usb.Connection :=
      ⟨"", ⟨0x81, 0x01⟩, [.all, .leading 2], [.packet "DATA00000003".toUTF8]⟩
    let outcome := (download Usb.Connection.transport payload connection).1
    Usb.Connection.transport.Honest ∧ payload.size < 2 ^ 32 ∧
      outcome.result = .error (.transport (.payloadCutShort 2 3)) ∧
      ∃ taken steps,
        acts outcome.events = .written (downloadCommand payload.size).toUTF8 taken :: steps ∧
          Delivers payload steps outcome.result := by
  intro payload connection outcome
  have small : payload.size < 2 ^ 32 := by decide
  exact ⟨Usb.Connection.honest, small, by decide +kernel,
    download_delivers Usb.Connection.honest small connection⟩

end Protocol

end FlashHost
