import FlashHost.Proofs.Device.Script
import FlashHost.Proofs.Wire.Following

/-!
# When an execution succeeds

The exact condition under which an execution succeeds, and how many packets it has read
by then. It is stated for the calls of a run over any transport, and for the answers of
a scripted device, which are known before the run.
-/

set_option autoImplicit false

namespace FlashHost

variable {α : Type} {outcome : Outcome α} {turns : List Turn}

/-- An activity goes through its turns just if all parcels may be sent and are taken
whole, and the replies come as awaited. -/
theorem Outcome.Follows.succeeds_iff (followed : outcome.Follows turns) :
    (∃ value, outcome.result = .ok value) ↔
      (∀ parcel ∈ sends turns, parcel.Allowed) ∧
      (∀ data result, .write data result ∈ outcome.exchanges → result = .ok data.size) ∧
      (awaits turns).map .reply <+: finals (received outcome.exchanges) := by
  constructor
  · rintro ⟨value, ended⟩
    have whole := followed.completes ended
    exact ⟨whole.allowed, fun _ _ => whole.taken, whole.finals_eq ▸ List.prefix_rfl⟩
  · rintro ⟨allowed, taken, answered⟩
    cases ended : outcome.result with
    | ok value => exact ⟨value, rfl⟩
    | error error =>
        have broken := followed.breaks ended
        exact absurd (by simpa using answered) (broken.not_all_right allowed taken [])

/-- The reads of a completed conversation used up answers of the script, and no more of
them than it called for. -/
theorem Completes.consumed {exchanges : List Exchange} {script left : Script}
    (whole : Completes turns exchanges)
    (served : Serves Script.transport script exchanges left) :
    ∃ consumed, script.reads = consumed ++ left.reads ∧
      received exchanges = consumed.map ReadAnswer.outcome := by
  obtain ⟨consumed, missing, parts, got, -⟩ := Script.received_of_serves served
  cases missing with
  | zero => exact ⟨consumed, parts, by simpa using got⟩
  | succ missing =>
      have broken : Heard.broken ∈ finals (received exchanges) := by
        simp [got, finals, heard, List.replicate_succ]
      simp [whole.finals_eq] at broken

private theorem Completes.write_granted {exchanges : List Exchange} {script left : Script}
    (whole : Completes turns exchanges)
    (served : Serves Script.transport script exchanges left) {number : Nat} {parcel : Parcel}
    (planned : (sends turns)[number]? = some parcel) :
    script.writeOutcome number parcel.bytes.size = .ok parcel.bytes.size := by
  have handed : (written exchanges)[number]? = some parcel.bytes := by
    rw [whole.written_eq, List.getElem?_map, planned, Option.map_some]
  obtain ⟨before, outcome, after, rfl, rfl⟩ := exists_write handed
  rw [← Script.write_of_serves served]
  exact whole.taken (by simp)

/-- A conversation does not break off when the answers of the script let the plan through. -/
theorem Breaks.not_granted {exchanges : List Exchange} {script left : Script}
    (broken : Breaks turns exchanges)
    (served : Serves Script.transport script exchanges left)
    (allowed : ∀ parcel ∈ sends turns, parcel.Allowed)
    (granted : ∀ number parcel, (sends turns)[number]? = some parcel →
      script.writeOutcome number parcel.bytes.size = .ok parcel.bytes.size) :
    ¬ (awaits turns).map .reply <+: finals (script.reads.map ReadAnswer.outcome) := by
  intro answered
  have taken : ∀ data outcome, .write data outcome ∈ exchanges → outcome = .ok data.size := by
    intro data outcome member
    obtain ⟨before, after, rfl⟩ := List.append_of_mem member
    obtain ⟨sent, ⟨rest, front⟩, same, -⟩ := broken.written_eq
    have handed : (sent.map Parcel.bytes)[(written before).length]? = some data := by
      simp [← same]
    rw [List.getElem?_map, Option.map_eq_some_iff] at handed
    obtain ⟨parcel, planned, rfl⟩ := handed
    have bound := (List.getElem?_eq_some_iff.mp planned).1
    rw [Script.write_of_serves served]
    refine granted _ _ ?_
    rw [← front, List.getElem?_append_left bound, planned]
  obtain ⟨consumed, missing, parts, got, exhausted⟩ := Script.received_of_serves served
  rw [parts, List.map_append, finals_append] at answered
  cases missing with
  | zero =>
      refine broken.not_all_right allowed taken (finals (left.reads.map ReadAnswer.outcome)) ?_
      simpa [got] using answered
  | succ missing =>
      refine broken.not_all_right allowed taken [] ?_
      rw [exhausted (by simp)] at answered
      rw [got, finals_append, List.append_nil]
      simpa using answered.trans (List.prefix_append _ _)

/-- The outcomes of some reads are the replies that several operations call for, with
information in between, and the last of the reads gave the last of the replies. -/
def HearsExactly (operations : List Operation)
    (outcomes : List (Except TransportFault ByteArray)) : Prop :=
  finals outcomes = (replies operations).map .reply ∧
    outcomes.getLast?.map heard = (replies operations).getLast?.map .reply

namespace Protocol

private theorem ok_iff (result : Except Error Unit) :
    (∃ value, result = .ok value) ↔ result = .ok () :=
  ⟨fun ⟨_, same⟩ => same, fun same => ⟨(), same⟩⟩

/-- An execution succeeds just if every parcel of the wire plan may be sent, every write is
reported as complete, and the packets bring the replies of the queue, in order and before
anything else but information. Then nothing is read beyond the last of these replies. For a
scripted device, the same is said of the answers that it has in store, and those that were
not called for are still there in the end. -/
theorem execute_succeeds_iff (queue : Queue) :
    (∀ (σ : Type) (transport : Transport σ) (device : σ),
      ((execute transport queue device).1.result = .ok () ↔
        (∀ parcel ∈ plan queue.toList, parcel.Allowed) ∧
        (∀ data result, .write data result ∈ (execute transport queue device).1.exchanges →
          result = .ok data.size) ∧
        (replies queue.toList).map .reply <+:
          finals (received (execute transport queue device).1.exchanges)) ∧
      ((execute transport queue device).1.result = .ok () →
        HearsExactly queue.toList (received (execute transport queue device).1.exchanges))) ∧
    ∀ script : Script,
      ((execute Script.transport queue script).1.result = .ok () ↔
        (∀ parcel ∈ plan queue.toList, parcel.Allowed) ∧
        (∀ number parcel, (plan queue.toList)[number]? = some parcel →
          script.writeOutcome number parcel.bytes.size = .ok parcel.bytes.size) ∧
        (replies queue.toList).map .reply <+: finals (script.reads.map ReadAnswer.outcome)) ∧
      ((execute Script.transport queue script).1.result = .ok () →
        ∃ consumed, script.reads = consumed ++ (execute Script.transport queue script).2.reads ∧
          HearsExactly queue.toList (consumed.map ReadAnswer.outcome)) := by
  have hears {exchanges : List Exchange}
      (whole : Completes ((rounds queue.toList).flatMap Round.turns) exchanges) :
      HearsExactly queue.toList (received exchanges) := by
    rw [HearsExactly, replies, ← Round.awaits_flatMap_turns]
    exact ⟨whole.finals_eq, whole.last_heard⟩
  constructor
  · intro σ transport device
    have followed := follows_execute transport queue device
    have exact := followed.succeeds_iff
    rw [ok_iff, Round.sends_flatMap_turns, Round.awaits_flatMap_turns] at exact
    exact ⟨exact, fun ended => hears (followed.completes ended)⟩
  · intro script
    have followed := follows_execute Script.transport queue script
    have served := served_execute Script.keepsSize queue script
    rw [plan, replies, ← Round.sends_flatMap_turns, ← Round.awaits_flatMap_turns]
    refine ⟨⟨fun ended => ?_, fun ⟨allowed, granted, answered⟩ => ?_⟩, fun ended => ?_⟩
    · have whole := followed.completes ended
      obtain ⟨consumed, parts, got⟩ := whole.consumed served
      refine ⟨whole.allowed, fun _ _ => whole.write_granted served, ?_⟩
      rw [parts, List.map_append, finals_append, ← got, whole.finals_eq]
      exact List.prefix_append _ _
    · cases ended : (execute Script.transport queue script).1.result with
      | ok value => rfl
      | error error =>
          exact absurd answered ((followed.breaks ended).not_granted served allowed granted)
    · have whole := followed.completes ended
      obtain ⟨consumed, parts, got⟩ := whole.consumed served
      exact ⟨consumed, parts, got ▸ hears whole⟩

end Protocol

end FlashHost
