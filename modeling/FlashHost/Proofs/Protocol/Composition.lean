import FlashHost.Proofs.Progress.Bracketing
import FlashHost.Proofs.Wire.Exchange

/-!
# Queues in sequence

The execution of a queue that was made longer, in terms of the executions of its parts. A
failure in the first part is all that there is to see of the whole; after a success, the rest
is executed as a queue of its own on the device as it was left.
-/

set_option autoImplicit false

namespace FlashHost

/-- Everything that happens but the notes for the log. -/
def deeds (events : List Event) : List Event :=
  events.filter fun
    | .noted _ => false
    | _ => true

@[simp] theorem deeds_nil : deeds [] = [] := rfl

@[simp] theorem deeds_append (earlier later : List Event) :
    deeds (earlier ++ later) = deeds earlier ++ deeds later :=
  List.filter_append ..

@[simp] theorem deeds_noted (note : Note) (events : List Event) :
    deeds (.noted note :: events) = deeds events := rfl

@[simp] theorem deeds_map_noted (notes : List Note) : deeds (notes.map .noted) = [] := by
  induction notes with
  | nil => rfl
  | cons note notes ih => exact ih

/-- The log shows nothing that is visible otherwise. -/
theorem filterMap_deeds {α : Type} {shown : Event → Option α}
    (silent : ∀ note, shown (.noted note) = none) (events : List Event) :
    (deeds events).filterMap shown = events.filterMap shown := by
  induction events with
  | nil => rfl
  | cons event events ih =>
      cases event with
      | noted note => rw [deeds_noted, List.filterMap_cons_none (silent note), ih]
      | _ =>
          rw [List.filterMap_cons, ← ih]
          rfl

theorem exchanges_eq_deeds {α : Type} (outcome : Outcome α) :
    outcome.exchanges = (deeds outcome.events).filterMap Event.exchange? :=
  (filterMap_deeds (fun _ => rfl) outcome.events).symm

theorem reports_eq_deeds (events : List Event) : reports events = reports (deeds events) :=
  (filterMap_deeds (fun _ => rfl) events).symm

namespace Protocol

open Session

variable {σ : Type} {transport : Transport σ} {queue : Queue} {device last : σ}
  {result : Except Error Unit} {events : List Event}

private theorem runAll_append (transport : Transport σ) (earlier later : List Operation) :
    runAll transport (earlier ++ later) =
      runAll transport earlier >>= fun _ => runAll transport later := by
  induction earlier with
  | nil => rfl
  | cons operation earlier ih =>
      rw [List.cons_append, runAll, runAll, ih, bind_assoc]

def ending : Except Error Unit → List Event
  | .ok () => [.progress .finished]
  | .error _ => []

theorem execute_of_runAll
    (ran : runAll transport queue.toList device = (⟨result, events⟩, last)) :
    execute transport queue device =
      (⟨result, .noted (.executing queue.size queue.payloadSize) :: (events ++ ending result)⟩,
        last) := by
  have noted : note (.executing queue.size queue.payloadSize) device =
      (⟨.ok (), [.noted (.executing queue.size queue.payloadSize)]⟩, device) := rfl
  rw [execute, bind_ok noted]
  cases result with
  | ok value =>
      rw [bind_ok ran]
      rfl
  | error error =>
      rw [bind_error ran, ending, List.append_nil]
      rfl

/-- The end is reported once: what was reported before it is no end. -/
theorem not_finished_of_ok
    (ran : runAll transport queue.toList device = (⟨.ok (), events⟩, last)) :
    .progress .finished ∉ deeds events := by
  have led := leads_execute transport queue device
  rw [execute_of_runAll ran] at led
  obtain ⟨earlier, parts, once⟩ := led.finished_iff.mp rfl
  have whole : reports events ++ [.finished] = earlier ++ [.finished] := by
    rw [← parts, reports_cons_silent rfl, reports_append]
    rfl
  obtain ⟨rfl, -⟩ := List.append_inj' whole rfl
  intro member
  apply once
  rw [reports_eq_deeds]
  exact List.mem_filterMap.mpr ⟨_, member, rfl⟩

/-- A queue made longer fails just as its first part does, or else goes on after it: with the
rest of the queue, on the device as the first part left it. Then the end of the first part is
the one thing that is not reported. -/
theorem execute_extend (transport : Transport σ) (first second : Queue) (device : σ) :
    let alone := execute transport first device
    let both := execute transport (first.extend second.toList) device
    (∀ error, alone.1.result = .error error →
      both.1.result = .error error ∧ both.2 = alone.2 ∧
        both.1.exchanges = alone.1.exchanges ∧
        reports both.1.events = reports alone.1.events ∧
        deeds both.1.events = deeds alone.1.events) ∧
    (alone.1.result = .ok () →
      let later := execute transport second alone.2
      both.1.result = later.1.result ∧ both.2 = later.2 ∧
        both.1.exchanges = alone.1.exchanges ++ later.1.exchanges ∧
        ∃ front, deeds alone.1.events = front ++ [.progress .finished] ∧
          .progress .finished ∉ front ∧
          reports both.1.events = reports front ++ reports later.1.events ∧
          deeds both.1.events = front ++ deeds later.1.events) := by
  intro alone both
  have sequence := runAll_append transport first.toList second.toList
  rw [← first.toList_extend second.toList] at sequence
  rcases ran : runAll transport first.toList device with ⟨⟨result, events⟩, middle⟩
  have part : alone = _ := execute_of_runAll ran
  cases result with
  | error error =>
      have failed : runAll transport (first.extend second.toList).toList device =
          (⟨.error error, events⟩, middle) := by
        rw [sequence, bind_error ran]
      have whole : both = _ := execute_of_runAll failed
      rw [whole, part]
      refine ⟨?_, nofun⟩
      intro _ same
      exact ⟨same, rfl, rfl, rfl, rfl⟩
  | ok value =>
      have left : alone.2 = middle := by rw [part]
      rw [left]
      refine ⟨by simp [part], ?_⟩
      intro _ later
      rcases continued : runAll transport second.toList middle with ⟨⟨result, others⟩, last⟩
      have resumed : runAll transport (first.extend second.toList).toList device =
          (⟨result, events ++ others⟩, last) := by
        rw [sequence, bind_ok ran, continued]
        rfl
      have whole : both = _ := execute_of_runAll resumed
      have rest : later = _ := execute_of_runAll continued
      have front : deeds alone.1.events = deeds events ++ [.progress .finished] := by
        rw [part]
        simp [ending, deeds]
      have joined : deeds both.1.events = deeds events ++ deeds later.1.events := by
        rw [whole, rest]
        simp
      refine ⟨by rw [whole, rest], by rw [whole, rest], ?_, deeds events, front,
        not_finished_of_ok ran, ?_, joined⟩
      · rw [exchanges_eq_deeds, exchanges_eq_deeds, exchanges_eq_deeds, joined, front]
        simp [Event.exchange?]
      · rw [reports_eq_deeds both.1.events, joined, reports_append,
          ← reports_eq_deeds later.1.events]

end Protocol

end FlashHost
