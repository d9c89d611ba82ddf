import FlashHost.Proofs.Wire.Following

/-!
# What an execution sends

The buffers that an execution hands to the transport are the front of the wire plan of
its queue, and all of it when the execution succeeds.
-/

set_option autoImplicit false

namespace FlashHost

/-- What was handed over in the course of some turns is the front of what is sent in
them, and all of it if they were gone through. -/
theorem Outcome.Follows.written_eq {α : Type} {outcome : Outcome α} {turns : List Turn}
    (followed : outcome.Follows turns) :
    ∃ sent, sent <+: sends turns ∧ written outcome.exchanges = sent.map Parcel.bytes ∧
      (∀ parcel ∈ sent, parcel.Allowed) ∧
      ∀ value, outcome.result = .ok value → sent = sends turns := by
  cases ended : outcome.result with
  | ok value =>
      have whole := followed.completes ended
      exact ⟨sends turns, List.prefix_rfl, whole.written_eq, whole.allowed, fun _ _ => rfl⟩
  | error error =>
      obtain ⟨sent, front, same, allowed⟩ := (followed.breaks ended).written_eq
      exact ⟨sent, front, same, allowed, by simp⟩

/-- Whatever the device does, an execution hands over the parcels of the wire plan in
order, from the first on: all of them if it succeeds. No command of more than 64 bytes
is among them. -/
theorem Protocol.written_execute {σ : Type} (transport : Transport σ) (queue : Queue)
    (device : σ) :
    ∃ sent, sent <+: plan queue.toList ∧
      written (execute transport queue device).1.exchanges = sent.map Parcel.bytes ∧
      (∀ parcel ∈ sent, parcel.IsCommand → parcel.bytes.size ≤ 64) ∧
      ((execute transport queue device).1.result = .ok () → sent = plan queue.toList) := by
  obtain ⟨sent, front, same, allowed, whole⟩ :=
    (follows_execute transport queue device).written_eq
  rw [Round.sends_flatMap_turns] at front whole
  exact ⟨sent, front, same, fun parcel member => (allowed parcel member).size_le, whole ()⟩

end FlashHost
