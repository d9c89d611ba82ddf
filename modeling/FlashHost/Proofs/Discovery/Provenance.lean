import FlashHost.Proofs.Discovery.Acquisition

/-!
# Where an acquired device comes from

A device that was acquired was offered in one of the passes and accepted by the filter. What
can be seen of the search is what can be seen of its passes, and the words on them.
-/

set_option autoImplicit false

namespace FlashHost.Discovery

variable {ρ η : Type} {bus : Bus ρ η} {offers : ρ → Except TransportFault (List (Offer η))}
  {filter : Filter} {pass : ρ} {passes left : List ρ} {device : η} {told : Bool}

def Gives (filter : Filter) (candidates : List (Offer η)) (device : η) : Prop :=
  ∃ offer ∈ candidates, filter.accepts offer.descriptor ∧ offer.device? = some device

private theorem gives_of_walks {candidates : List (Offer η)} {opened : Option η} {state last : Unit}
    {seen : List (Descriptor × Verdict)} (found : opened = some device)
    (walked : Walks (accepting filter) state candidates opened last seen) :
    Gives filter candidates device := by
  induction walked with
  | ended => cases found
  | opened judged there =>
      cases found
      exact ⟨_, List.mem_cons_self,
        verdict_eq_accept_iff.mp (verdict_of_accepting judged).symm, there⟩
  | skipped _ _ _ ih =>
      obtain ⟨offer, member, accepted, there⟩ := ih found
      exact ⟨offer, List.mem_cons_of_mem _ member, accepted, there⟩

private theorem gives_of_enumerate (walked : bus.Offers offers)
    (found : (bus.enumerate (accepting filter) () pass).result = .ok (some device)) :
    Gives filter (offered offers pass) device := by
  cases listed : offers pass with
  | error fault =>
      rw [(walked.failed (accepting filter) () listed).1] at found
      cases found
  | ok candidates =>
      obtain ⟨opened, seen, shown, result, -⟩ := walked.walked (accepting filter) () listed
      rw [result] at found
      cases found
      rw [offered_of_ok listed]
      exact gives_of_walks rfl shown

/-- An acquired device was given by one of the passes. -/
theorem gives_of_acquireFrom (walked : bus.Offers offers)
    (found : (acquireFrom bus filter told passes).1 = some (device, left)) :
    ∃ pass ∈ passes, Gives filter (offered offers pass) device := by
  induction passes generalizing told with
  | nil => cases found
  | cons pass passes ih =>
      by_cases opens : ∃ opened,
          (bus.enumerate (accepting filter) () pass).result = .ok (some opened)
      · obtain ⟨opened, result⟩ := opens
        rw [acquireFrom_opened result] at found
        cases found
        exact ⟨pass, List.mem_cons_self, gives_of_enumerate walked result⟩
      · have unopened := acquireFrom_unopened told passes
          fun opened result => opens ⟨opened, result⟩
        rw [unopened.1] at found
        obtain ⟨earlier, member, given⟩ := ih found
        exact ⟨earlier, List.mem_cons_of_mem _ member, given⟩

/-- What holds of everything that happens in the passes holds of all that happens in a search,
if it holds of notes and of the word to wait. -/
theorem forall_acquireFrom {holds : Event → Prop}
    (passing : ∀ pass, ∀ event ∈ (bus.enumerate (accepting filter) () pass).events, holds event)
    (noted : ∀ note, holds (.noted note)) (waiting : holds .waiting) (told : Bool)
    (passes : List ρ) : ∀ event ∈ (acquireFrom bus filter told passes).2, holds event := by
  induction passes generalizing told with
  | nil => exact List.forall_mem_nil _
  | cons pass passes ih =>
      have own := passing pass
      have later := ih true
      have notice : ∀ event ∈ if told then [] else [Event.waiting], holds event := by
        cases told <;> simp [waiting]
      rw [acquireFrom]
      split
      · exact own
      · simp only [List.forall_mem_append]
        refine ⟨⟨⟨own, ?_⟩, notice⟩, later⟩
        split
        · exact List.forall_mem_singleton.mpr (noted _)
        · exact List.forall_mem_nil _

end FlashHost.Discovery
