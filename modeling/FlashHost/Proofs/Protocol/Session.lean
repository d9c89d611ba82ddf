import FlashHost.Protocol.Session

/-!
# Sessions in sequence

What two sessions in sequence come to, by how the first one ends. Longer sequences of
sessions may be regrouped.
-/

set_option autoImplicit false

namespace FlashHost.Session

variable {σ α β γ : Type} {first : Session σ α} {next : α → Session σ β} {device later : σ}
  {events : List Event}

theorem bind_ok {value : α} (ran : first device = (⟨.ok value, events⟩, later)) :
    (first >>= next) device = ((next value later).1.after events, (next value later).2) := by
  change Session.bind first next device = _
  rw [Session.bind, ran]

theorem bind_error {error : Error} (ran : first device = (⟨.error error, events⟩, later)) :
    (first >>= next) device = (⟨.error error, events⟩, later) := by
  change Session.bind first next device = _
  rw [Session.bind, ran]

/-- What every event of two sessions satisfies, the events of their sequence satisfy. -/
theorem forall_events_bind {holds : Event → Prop}
    (head : ∀ device, ∀ event ∈ (first device).1.events, holds event)
    (tail : ∀ value device, ∀ event ∈ (next value device).1.events, holds event) (device : σ) :
    ∀ event ∈ ((first >>= next) device).1.events, holds event := by
  have own := head device
  rcases ran : first device with ⟨⟨result, events⟩, after⟩
  rw [ran] at own
  cases result with
  | error error =>
      rw [bind_error ran]
      exact own
  | ok value =>
      rw [bind_ok ran]
      exact List.forall_mem_append.mpr ⟨own, tail value after⟩

theorem attempt_of_run {result : Except Error α}
    (ran : first device = (⟨result, events⟩, later)) :
    first.attempt device = (⟨.ok result, events⟩, later) := by
  rw [Session.attempt, ran]

private theorem sequence_pure (session : Session σ α) : session >>= pure = session := by
  funext device
  rcases ran : session device with ⟨⟨result, events⟩, later⟩
  cases result with
  | error error => rw [bind_error ran]
  | ok value =>
      rw [bind_ok ran]
      change (Outcome.after events ⟨.ok value, []⟩, later) = _
      simp [Outcome.after]

private theorem sequence_regroup (first : Session σ α) (next : α → Session σ β)
    (last : β → Session σ γ) :
    first >>= next >>= last = first >>= fun value => next value >>= last := by
  funext device
  rcases ran : first device with ⟨⟨result, events⟩, later⟩
  cases result with
  | error error => rw [bind_error ran, bind_error (bind_error ran)]
  | ok value =>
      have regrouped : (first >>= fun value => next value >>= last) device = _ := bind_ok ran
      rw [regrouped]
      rcases continued : next value later with ⟨⟨result, others⟩, after⟩
      have both : (first >>= next) device = (⟨result, events ++ others⟩, after) := by
        rw [bind_ok ran, continued]
        rfl
      cases result with
      | error error => rw [bind_error both, bind_error continued]; rfl
      | ok value => rw [bind_ok both, bind_ok continued]; simp [Outcome.after]

instance : LawfulMonad (Session σ) :=
  LawfulMonad.mk' (Session σ) sequence_pure (fun _ _ => rfl) sequence_regroup

end FlashHost.Session
