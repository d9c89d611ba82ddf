import FlashHost.Files
import Mathlib.Data.List.Forall2

/-!
# Results of activities

The result of an activity in terms of the results of its parts, whatever can be seen of
them on the way, and what it takes for a result to be good.
-/

set_option autoImplicit false

namespace FlashHost

namespace Result

variable {ε ε' α β : Type}

@[simp] theorem ok_bind (value : α) (next : α → Except ε β) : (.ok value) >>= next = next value :=
  rfl

@[simp] theorem error_bind (error : ε) (next : α → Except ε β) :
    (.error error) >>= next = .error error := rfl

@[simp] theorem map_ok (f : α → β) (value : α) : (.ok value : Except ε α).map f = .ok (f value) :=
  rfl

@[simp] theorem map_error (f : α → β) (error : ε) :
    (.error error : Except ε α).map f = .error error := rfl

@[simp] theorem mapError_ok (f : ε → ε') (value : α) :
    (.ok value : Except ε α).mapError f = .ok value := rfl

@[simp] theorem mapError_error (f : ε → ε') (error : ε) :
    (.error error : Except ε α).mapError f = .error (f error) := rfl

theorem bind_eq_ok_iff {first : Except ε α} {next : α → Except ε β} {value : β} :
    first >>= next = .ok value ↔ ∃ middle, first = .ok middle ∧ next middle = .ok value := by
  cases first with
  | error error => exact ⟨nofun, nofun⟩
  | ok middle =>
      constructor
      · intro good
        exact ⟨middle, rfl, good⟩
      · rintro ⟨_, ⟨⟩, good⟩
        exact good

theorem map_eq_ok_iff {f : α → β} {result : Except ε α} {value : β} :
    result.map f = .ok value ↔ ∃ middle, result = .ok middle ∧ f middle = value := by
  cases result <;> simp

theorem mapError_eq_ok_iff {f : ε → ε'} {result : Except ε α} {value : α} :
    result.mapError f = .ok value ↔ result = .ok value := by
  cases result <;> simp

theorem mapError_eq_error_iff {f : ε → ε'} {result : Except ε α} {error : ε'} :
    result.mapError f = .error error ↔ ∃ cause, result = .error cause ∧ f cause = error := by
  cases result <;> simp

theorem mapM_eq_ok_iff {f : α → Except ε β} {inputs : List α} {outputs : List β} :
    inputs.mapM f = .ok outputs ↔
      List.Forall₂ (fun input output => f input = .ok output) inputs outputs := by
  induction inputs generalizing outputs with
  | nil => cases outputs <;> simp [Pure.pure, Except.pure]
  | cons input inputs ih =>
      rw [List.mapM_cons, bind_eq_ok_iff]
      constructor
      · rintro ⟨output, own, good⟩
        obtain ⟨others, rest, ⟨⟩⟩ := bind_eq_ok_iff.mp good
        exact .cons own (ih.mp rest)
      · rintro (_ | ⟨own, rest⟩)
        exact ⟨_, own, bind_eq_ok_iff.mpr ⟨_, ih.mpr rest, rfl⟩⟩

theorem bind_eq_error_iff {first : Except ε α} {next : α → Except ε β} {error : ε} :
    first >>= next = .error error ↔
      first = .error error ∨ ∃ middle, first = .ok middle ∧ next middle = .error error := by
  cases first with
  | error first => simp
  | ok middle => simp

theorem exists_mapM_eq_ok_iff {f : α → Except ε β} {inputs : List α} :
    (∃ outputs, inputs.mapM f = .ok outputs) ↔
      ∀ input ∈ inputs, ∃ output, f input = .ok output := by
  simp only [mapM_eq_ok_iff]
  induction inputs with
  | nil => simp
  | cons input inputs ih =>
      simp only [List.forall_mem_cons, ← ih, List.forall₂_cons_left_iff]
      constructor
      · rintro ⟨_, output, outputs, own, rest, rfl⟩
        exact ⟨⟨output, own⟩, outputs, rest⟩
      · rintro ⟨⟨output, own⟩, outputs, rest⟩
        exact ⟨_, output, outputs, own, rest, rfl⟩

theorem mapM_append_error {f : α → Except ε β} {earlier later : List α} {input : α} {error : ε}
    (right : ∀ one ∈ earlier, ∃ output, f one = .ok output) (failed : f input = .error error) :
    (earlier ++ input :: later).mapM f = .error error := by
  induction earlier with
  | nil => rw [List.nil_append, List.mapM_cons, failed, error_bind]
  | cons one earlier ih =>
      obtain ⟨⟨output, own⟩, others⟩ := List.forall_mem_cons.mp right
      rw [List.cons_append, List.mapM_cons, own, ok_bind, ih others, error_bind]

/-- The first input that is in error gives the error of all. -/
theorem mapM_eq_error_iff {f : α → Except ε β} {inputs : List α} {error : ε} :
    inputs.mapM f = .error error ↔
      ∃ earlier input later, inputs = earlier ++ input :: later ∧
        (∀ one ∈ earlier, ∃ output, f one = .ok output) ∧ f input = .error error := by
  constructor
  · intro failed
    induction inputs with
    | nil => cases failed
    | cons input inputs ih =>
        rw [List.mapM_cons] at failed
        obtain own | ⟨output, own, rest⟩ := bind_eq_error_iff.mp failed
        · exact ⟨[], input, inputs, rfl, by simp, own⟩
        · obtain others | ⟨_, -, ⟨⟩⟩ := bind_eq_error_iff.mp rest
          obtain ⟨earlier, wrong, later, rfl, right, refused⟩ := ih others
          exact ⟨input :: earlier, wrong, later, rfl,
            List.forall_mem_cons.mpr ⟨⟨output, own⟩, right⟩, refused⟩
  · rintro ⟨earlier, input, later, rfl, right, failed⟩
    exact mapM_append_error right failed

end Result

namespace Outcome

variable {α β : Type}

@[simp] theorem result_pure (value : α) : (Pure.pure value : Outcome α).result = .ok value := rfl

@[simp] theorem result_fail (error : Error) : (fail error : Outcome α).result = .error error := rfl

@[simp] theorem result_emit (event : Event) : (emit event).result = .ok () := rfl

@[simp] theorem result_note (note : Note) : (Outcome.note note).result = .ok () := rfl

@[simp] theorem result_ofExcept (result : Except Error α) : (ofExcept result).result = result := rfl

@[simp] theorem result_mapError (f : Error → Error) (outcome : Outcome α) :
    (outcome.mapError f).result = outcome.result.mapError f := rfl

@[simp] theorem result_bind (first : Outcome α) (next : α → Outcome β) :
    (first >>= next).result = first.result >>= fun value => (next value).result := by
  have unfolded : first >>= next = first.bind next := rfl
  rw [unfolded, Outcome.bind]
  cases first.result <;> rfl

theorem bind_of_ok {first : Outcome α} {next : α → Outcome β} {value : α}
    (good : first.result = .ok value) : first >>= next = (next value).after first.events := by
  change first.bind next = _
  rw [Outcome.bind, good]

theorem bind_of_error {first : Outcome α} {next : α → Outcome β} {error : Error}
    (failed : first.result = .error error) :
    first >>= next = ⟨.error error, first.events⟩ := by
  change first.bind next = _
  rw [Outcome.bind, failed]

private theorem after_bind (events : List Event) (outcome : Outcome α) (next : α → Outcome β) :
    outcome.after events >>= next = (outcome >>= next).after events := by
  cases ended : outcome.result with
  | ok value =>
      have same : (outcome.after events).result = .ok value := ended
      rw [bind_of_ok ended, bind_of_ok same]
      simp [after]
  | error error =>
      have same : (outcome.after events).result = .error error := ended
      rw [bind_of_error ended, bind_of_error same]
      rfl

theorem after_after (events earlier : List Event) (outcome : Outcome α) :
    (outcome.after events).after earlier = outcome.after (earlier ++ events) := by
  simp [after]

theorem bind_regroup {γ : Type} (first : Outcome α) (next : α → Outcome β)
    (last : β → Outcome γ) :
    first >>= next >>= last = first >>= fun value => next value >>= last := by
  cases ended : first.result with
  | ok value => rw [bind_of_ok ended, bind_of_ok ended, after_bind]
  | error error =>
      rw [bind_of_error ended, bind_of_error ended]
      rfl

/-! ## Activities of which only certain things can be seen -/

def Only (allowed : Event → Prop) (outcome : Outcome α) : Prop :=
  ∀ event ∈ outcome.events, allowed event

section Only

variable {allowed : Event → Prop}

theorem only_pure (value : α) : (Pure.pure value : Outcome α).Only allowed := nofun

theorem only_fail (error : Error) : (fail error : Outcome α).Only allowed := nofun

theorem only_ofExcept (result : Except Error α) : (ofExcept result).Only allowed := nofun

theorem only_emit {event : Event} (own : allowed event) : (emit event).Only allowed :=
  List.forall_mem_singleton.mpr own

theorem Only.bind {first : Outcome α} {next : α → Outcome β} (head : first.Only allowed)
    (tail : ∀ value, (next value).Only allowed) : (first >>= next).Only allowed := by
  cases ended : first.result with
  | error error =>
      rw [bind_of_error ended]
      exact head
  | ok value =>
      rw [bind_of_ok ended]
      exact List.forall_mem_append.mpr ⟨head, tail value⟩

theorem Only.mapError {outcome : Outcome α} (only : outcome.Only allowed) (f : Error → Error) :
    (outcome.mapError f).Only allowed := only

theorem Only.imp {outcome : Outcome α} {wider : Event → Prop} (only : outcome.Only allowed)
    (within : ∀ event, allowed event → wider event) : outcome.Only wider :=
  fun event member => within event (only event member)

end Only

end Outcome

@[simp] theorem Queue.result_enqueueAll (queue : Queue) (operations : List Operation) :
    (queue.enqueueAll operations).result = .ok (queue.extend operations) := by
  induction operations generalizing queue with
  | nil => rfl
  | cons operation operations ih =>
      rw [Queue.enqueueAll, Outcome.result_bind, Queue.enqueue, Outcome.result_bind]
      exact ih (queue.push operation)

@[simp] theorem Files.result_load (files : Files) (path : String) :
    (files.load path).result = (files.read path).mapError (.cannotLoad path) := by
  rw [Files.load]
  cases files.read path <;> rfl

end FlashHost
