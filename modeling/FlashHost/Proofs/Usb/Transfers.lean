import FlashHost.Proofs.Wire.Position
import FlashHost.Protocol.Reply
import FlashHost.Usb.Connection

/-!
# Transfers below the calls

The transfers that calls on a connection come down to, the bytes that a device takes in them,
and what is known of these bytes from the calls.
-/

set_option autoImplicit false

namespace FlashHost

def transfers (events : List Event) : List Transfer :=
  events.filterMap fun
    | .transferred transfer => some transfer
    | _ => none

def octets (data : ByteArray) : List UInt8 :=
  data.data.toList

theorem length_octets (data : ByteArray) : (octets data).length = data.size := rfl

namespace Transfer

/-- The transfer failed, or not all that was submitted was taken. -/
def Cut : Transfer → Prop
  | .outgoing _ data outcome => outcome ≠ .ok data.size
  | .incoming _ _ outcome => ∀ packet, outcome ≠ .ok packet

/-- The device takes these bytes in a transfer: as many leading bytes as are reported, and any
leading bytes if the transfer fails. -/
def Takes : Transfer → List UInt8 → Prop
  | .outgoing _ data (.ok count), bytes => bytes = (octets data).take count
  | .outgoing _ data (.error _), bytes => bytes <+: octets data
  | .incoming _ _ _, bytes => bytes = []

end Transfer

inductive Takes : List Transfer → List UInt8 → Prop where
  | nil : Takes [] []
  | cons {transfer transfers bytes others} :
      transfer.Takes bytes → Takes transfers others →
      Takes (transfer :: transfers) (bytes ++ others)

def submitted (transfers : List Transfer) : List UInt8 :=
  transfers.flatMap fun
    | .outgoing _ data _ => octets data
    | .incoming _ _ _ => []

namespace Usb

/-- The transfer of a call on a connection with these endpoints: the whole of what is written,
or a packet that is read. -/
inductive Carried (endpoints : EndpointPair) : Exchange → Transfer → Prop where
  | write {data outcome} :
      data.size ≠ 0 →
      Carried endpoints (.write data (outcome.mapError Connection.transportFault))
        (.outgoing endpoints.outgoing data outcome)
  | read {outcome} :
      Carried endpoints (.read (outcome.mapError Connection.transportFault))
        (.incoming endpoints.incoming Protocol.maxPacketSize outcome)

/-- The transfers of calls on a connection: one for each call, but none for a write of no
bytes. -/
inductive Carries (endpoints : EndpointPair) : List Exchange → List Transfer → Prop where
  | nil : Carries endpoints [] []
  | idle {data exchanges transfers} :
      data.size = 0 → Carries endpoints exchanges transfers →
      Carries endpoints (.write data (.ok 0) :: exchanges) transfers
  | call {call transfer exchanges transfers} :
      Carried endpoints call transfer → Carries endpoints exchanges transfers →
      Carries endpoints (call :: exchanges) (transfer :: transfers)

end Usb

@[simp] theorem transfers_append (earlier later : List Event) :
    transfers (earlier ++ later) = transfers earlier ++ transfers later :=
  List.filterMap_append ..

@[simp] theorem transfers_transferred (listed : List Transfer) :
    transfers (listed.map .transferred) = listed := by
  simp [transfers, List.filterMap_map]

private theorem octets_of_empty {data : ByteArray} (empty : data.size = 0) : octets data = [] :=
  List.eq_nil_of_length_eq_zero empty

@[simp] theorem submitted_append (earlier later : List Transfer) :
    submitted (earlier ++ later) = submitted earlier ++ submitted later :=
  List.flatMap_append ..

theorem Transfer.Takes.isPrefix {transfer : Transfer} {bytes : List UInt8}
    (takes : transfer.Takes bytes) : bytes <+: submitted [transfer] := by
  cases transfer with
  | incoming endpoint limit outcome =>
      obtain rfl : bytes = [] := takes
      exact List.nil_prefix
  | outgoing endpoint data outcome =>
      have whole : submitted [.outgoing endpoint data outcome] = octets data :=
        List.append_nil _
      rw [whole]
      cases outcome with
      | ok count =>
          obtain rfl : bytes = (octets data).take count := takes
          exact List.take_prefix _ _
      | error fault => exact takes

theorem Transfer.Takes.eq_of_not_cut {transfer : Transfer} {bytes : List UInt8}
    (takes : transfer.Takes bytes) (uncut : ¬ transfer.Cut) : bytes = submitted [transfer] := by
  cases transfer with
  | incoming endpoint limit outcome => exact takes
  | outgoing endpoint data outcome =>
      obtain rfl : outcome = .ok data.size := by simpa [Transfer.Cut] using uncut
      have whole : bytes = (octets data).take (octets data).length := takes
      rw [whole, List.take_length]
      exact (List.append_nil _).symm

/-- If only the last transfer may have been cut, the bytes taken are the front of those
submitted. -/
theorem Takes.isPrefix {listed : List Transfer} {bytes : List UInt8} (takes : Takes listed bytes)
    (last : ∀ earlier transfer later, listed = earlier ++ transfer :: later → transfer.Cut →
      later = []) : bytes <+: submitted listed := by
  induction takes with
  | nil => exact List.nil_prefix
  | @cons transfer listed bytes others taken rest ih =>
      have parts : submitted (transfer :: listed) = submitted [transfer] ++ submitted listed :=
        submitted_append [transfer] listed
      rw [parts]
      by_cases cut : transfer.Cut
      · obtain rfl : listed = [] := last [] transfer listed rfl cut
        cases rest
        rw [List.append_nil]
        exact taken.isPrefix.trans (List.prefix_append _ _)
      · rw [taken.eq_of_not_cut cut]
        refine (List.prefix_append_right_inj _).mpr (ih ?_)
        intro earlier other later parts
        exact last (transfer :: earlier) other later (congrArg _ parts)

theorem Takes.eq_of_not_cut {listed : List Transfer} {bytes : List UInt8}
    (takes : Takes listed bytes) (uncut : ∀ transfer ∈ listed, ¬ transfer.Cut) :
    bytes = submitted listed := by
  induction takes with
  | nil => rfl
  | @cons transfer listed bytes others taken rest ih =>
      obtain ⟨own, later⟩ := List.forall_mem_cons.mp uncut
      rw [taken.eq_of_not_cut own, ih later]
      exact (submitted_append [transfer] listed).symm

namespace Usb

variable {endpoints : EndpointPair} {exchanges : List Exchange} {listed : List Transfer}

theorem Carries.append {others : List Exchange} {more : List Transfer}
    (first : Carries endpoints exchanges listed) (second : Carries endpoints others more) :
    Carries endpoints (exchanges ++ others) (listed ++ more) := by
  induction first with
  | nil => exact second
  | idle empty _ ih => exact .idle empty ih
  | call carried _ ih => exact .call carried ih

theorem Carries.append_silent {events others : List Event}
    (carries : Carries endpoints (events.filterMap Event.exchange?) (transfers events))
    (calm : others.filterMap Event.exchange? = []) (still : transfers others = []) :
    Carries endpoints ((events ++ others).filterMap Event.exchange?)
      (transfers (events ++ others)) := by
  rwa [List.filterMap_append, calm, transfers_append, still, List.append_nil, List.append_nil]

/-- Each transfer is that of a call, with the earlier transfers before it. -/
theorem Carries.split {earlier later : List Transfer} {transfer : Transfer}
    (carries : Carries endpoints exchanges (earlier ++ transfer :: later)) :
    ∃ before call after, exchanges = before ++ call :: after ∧
      Carried endpoints call transfer ∧ Carries endpoints after later := by
  generalize parts : earlier ++ transfer :: later = listed at carries
  induction carries generalizing earlier with
  | nil => simp at parts
  | @idle data exchanges listed empty _ ih =>
      obtain ⟨before, call, after, rfl, own, rest⟩ := ih parts
      exact ⟨.write data (.ok 0) :: before, call, after, rfl, own, rest⟩
  | @call first shown exchanges listed carried rest ih =>
      cases earlier with
      | nil =>
          cases parts
          exact ⟨[], first, exchanges, rfl, carried, rest⟩
      | cons other earlier =>
          obtain ⟨rfl, tail⟩ := List.cons.inj parts
          obtain ⟨before, call, after, rfl, own, rest⟩ := ih tail
          exact ⟨first :: before, call, after, rfl, own, rest⟩

theorem Carries.submitted_eq (carries : Carries endpoints exchanges listed) :
    submitted listed = (written exchanges).flatMap octets := by
  induction carries with
  | nil => rfl
  | idle empty _ ih => rw [written_write, List.flatMap_cons, octets_of_empty empty, ih]; rfl
  | call carried _ ih =>
      cases carried with
      | write some => rw [written_write, List.flatMap_cons, ← ih]; rfl
      | read => exact ih

/-- A call that lets the conversation go on is not cut below. -/
theorem Carried.not_cut {call : Exchange} {transfer : Transfer} {turn : Turn}
    (carried : Carried endpoints call transfer) (right : turn.Fulfils call) : ¬ transfer.Cut := by
  intro cut
  cases carried with
  | @write data outcome some =>
      cases turn with
      | await due => exact right
      | send parcel =>
          cases outcome with
          | error fault => cases right
          | ok count =>
              have whole : Except.ok count = Except.ok data.size := right
              cases whole
              exact cut rfl
  | @read outcome =>
      cases turn with
      | send parcel => exact right
      | await due =>
          cases outcome with
          | ok packet => exact cut packet rfl
          | error fault => exact right.elim nofun nofun

/-- Nothing is transferred after a transfer that was cut. -/
theorem Carries.cut_last {α : Type} {outcome : Outcome α} {turns : List Turn}
    (carries : Carries endpoints outcome.exchanges listed) (followed : outcome.Follows turns) :
    ∀ earlier transfer later, listed = earlier ++ transfer :: later → transfer.Cut →
      later = [] := by
  rintro earlier transfer later rfl cut
  obtain ⟨before, call, after, made, carried, rest⟩ := carries.split
  obtain ⟨_, turn, _, _, _, -, -, -, -, -, right | rfl⟩ := followed.standsIn made
  · exact absurd cut (carried.not_cut right)
  · cases rest
    rfl

theorem Carries.uncut {turns : List Turn} (carries : Carries endpoints exchanges listed)
    (whole : Completes turns exchanges) : ∀ transfer ∈ listed, ¬ transfer.Cut := by
  intro transfer member
  obtain ⟨earlier, later, rfl⟩ := List.append_of_mem member
  obtain ⟨before, call, after, rfl, carried, -⟩ := carries.split
  obtain ⟨_, turn, _, _, _, -, -, -, -, -, right⟩ := whole.standsIn
  exact carried.not_cut (right.resolve_right id)

end Usb

end FlashHost
