import FlashHost.Proofs.Discovery.Acquisition

/-!
# Listing and acquiring

A listing of a pass shows everything that a search of the pass could end with. The search ends
with the first device of the listing that can be opened, and goes on if there is none.
-/

set_option autoImplicit false

namespace FlashHost.Discovery

variable {ρ η : Type}

def matching (filter : Filter) (candidates : List (Offer η)) : List (Offer η) :=
  candidates.filter fun offer => filter.accepts offer.descriptor

/-- What a listing of a pass and a search that begins with it come to, if the pass offers the
given candidates. -/
structure Concur (bus : Bus ρ η) (filter : Filter) (pass : ρ) (candidates : List (Offer η)) :
    Prop where
  listed : (list bus filter pass).result = .ok ((matching filter candidates).map Offer.descriptor)
  /-- The listing is offered each candidate once and accepts none. -/
  offered : search (list bus filter pass).events =
    .enumerated :: candidates.map fun offer => .visited offer.descriptor .pass
  unopened : (bus.enumerate (collecting filter) [] pass).result = .ok none
  /-- The search ends with the first device on the list that can be opened. -/
  acquired : ∀ device, (matching filter candidates).findSome? Offer.device? = some device →
    ∀ passes, (acquire bus filter (pass :: passes)).1 = some (device, passes)
  /-- The search goes on, as if the pass had not been there, if there is no such device. -/
  missed : (matching filter candidates).findSome? Offer.device? = none →
    ∀ passes, (acquire bus filter (pass :: passes)).1 = (acquire bus filter passes).1
  waits : (acquire bus filter [pass]).1 = none ↔
    ∀ offer ∈ matching filter candidates, offer.device? = none
  /-- The user is told to wait just if the search goes on. -/
  told : ∀ passes, .waiting ∈ (acquire bus filter (pass :: passes)).2 ↔
    ∀ offer ∈ matching filter candidates, offer.device? = none

variable {bus : Bus ρ η} {offers : ρ → Except TransportFault (List (Offer η))} {filter : Filter}
  {pass : ρ} {candidates : List (Offer η)}

/-- A visitor that collects what it is shown opens nothing, and so is shown everything. -/
theorem walks_collecting {found last : List Descriptor} {opened : Option η}
    {seen : List (Descriptor × Verdict)}
    (walked : Walks (collecting filter) found candidates opened last seen) :
    opened = none ∧ last = found ++ (matching filter candidates).map Offer.descriptor ∧
      seen = candidates.map fun offer => (offer.descriptor, .pass) := by
  induction walked with
  | ended => exact ⟨rfl, by simp [matching], rfl⟩
  | opened told _ => cases told
  | @skipped found offer candidates verdict notes next opened last seen told _ _ ih =>
      cases told
      obtain ⟨rfl, rfl, rfl⟩ := ih
      refine ⟨rfl, ?_, rfl⟩
      by_cases accepted : filter.accepts offer.descriptor <;> simp [matching, accepted]

theorem mem_waiting_search {events : List Event} :
    .waiting ∈ events ↔ .waiting ∈ search events := by
  simp [search]

private theorem not_mem_waiting_sights (filter : Filter) (candidates : List (Offer η)) :
    .waiting ∉ sights filter candidates := by
  simp [sights]

/-- What comes of a search does not depend on what the user was told before. -/
theorem result_acquireFrom (told : Bool) (passes : List ρ) :
    (acquireFrom bus filter told passes).1 = (acquire bus filter passes).1 := by
  rw [acquire]
  cases passes with
  | nil => rfl
  | cons pass passes =>
      by_cases opens : ∃ device, (bus.enumerate (accepting filter) () pass).result =
          .ok (some device)
      · obtain ⟨device, found⟩ := opens
        rw [acquireFrom_opened found, acquireFrom_opened found]
      · have missed := fun device found => opens ⟨device, found⟩
        rw [(acquireFrom_unopened told passes missed).1,
          (acquireFrom_unopened false passes missed).1]

/-- The first matching candidate that can be opened is the first one that is eligible. -/
theorem first_matching {device : η}
    (first : (matching filter candidates).findSome? Offer.device? = some device) :
    ∃ before chosen after, candidates = before ++ chosen :: after ∧
      (∀ offer ∈ before, ¬ offer.Eligible filter) ∧ filter.accepts chosen.descriptor ∧
      chosen.device? = some device := by
  obtain ⟨front, chosen, back, parts, there, locked⟩ := List.findSome?_eq_some_iff.mp first
  obtain ⟨early, rest, rfl, rfl, others⟩ := List.filter_eq_append_iff.mp parts
  obtain ⟨passed, after, rfl, refused, accepted, -⟩ := List.filter_eq_cons_iff.mp others
  refine ⟨early ++ passed, chosen, after, by simp, ?_, accepted, there⟩
  intro offer member fit
  rcases List.mem_append.mp member with member | member
  · have closed := locked offer (List.mem_filter.mpr ⟨member, fit.1⟩)
    exact absurd fit.2 (by simp [closed])
  · exact refused offer member fit.1

section Passes

variable (walked : bus.Offers offers) (listed : offers pass = .ok candidates)

include walked listed

theorem list_of_offers (filter : Filter) :
    (list bus filter pass).result = .ok ((matching filter candidates).map Offer.descriptor) ∧
      search (list bus filter pass).events =
        .enumerated :: candidates.map (fun offer => .visited offer.descriptor .pass) ∧
      (bus.enumerate (collecting filter) [] pass).result = .ok none := by
  obtain ⟨opened, seen, shown, result, events⟩ := walked.walked (collecting filter) [] listed
  obtain ⟨rfl, found, rfl⟩ := walks_collecting shown
  rw [List.map_map] at events
  rw [list, result]
  exact ⟨congrArg Except.ok found, events, rfl⟩

private theorem acquire_of_first {device : η}
    (first : (matching filter candidates).findSome? Offer.device? = some device)
    (passes : List ρ) :
    (acquire bus filter (pass :: passes)).1 = some (device, passes) ∧
      .waiting ∉ (acquire bus filter (pass :: passes)).2 := by
  obtain ⟨before, chosen, after, parts, idle, accepted, there⟩ := first_matching first
  rw [← offered_of_ok listed] at parts
  obtain ⟨result, events⟩ :=
    acquire_chosen walked (List.forall_mem_nil _) parts idle accepted there passes
  refine ⟨result, fun told => ?_⟩
  have shown := mem_waiting_search.mp told
  rw [← List.nil_append (pass :: passes), events] at shown
  exact not_mem_waiting_sights filter _ shown

private theorem acquire_of_locked
    (locked : ∀ offer ∈ matching filter candidates, offer.device? = none) (passes : List ρ) :
    (acquire bus filter (pass :: passes)).1 = (acquire bus filter passes).1 ∧
      .waiting ∈ (acquire bus filter (pass :: passes)).2 := by
  have idle : ∀ offer ∈ offered offers pass, ¬ offer.Eligible filter := by
    rw [offered_of_ok listed]
    intro offer member fit
    have closed := locked offer (List.mem_filter.mpr ⟨member, fit.1⟩)
    exact absurd fit.2 (by simp [closed])
  obtain ⟨result, events⟩ := acquireFrom_unopened false passes (enumerate_idle walked idle).1
  refine ⟨result.trans (result_acquireFrom true passes), ?_⟩
  rw [mem_waiting_search, acquire, events]
  simp

/-- A listing and a search under the same filter agree on what a pass has to offer. -/
theorem concur_list_acquire (filter : Filter) : Concur bus filter pass candidates := by
  obtain ⟨result, offered, unopened⟩ := list_of_offers walked listed filter
  cases first : (matching filter candidates).findSome? Offer.device? with
  | none =>
      have locked := List.findSome?_eq_none_iff.mp first
      have goes := acquire_of_locked walked listed locked
      exact
        { listed := result, offered, unopened
          acquired := by simp [first]
          missed := fun _ passes => (goes passes).1
          waits := iff_of_true (goes []).1 locked
          told := fun passes => iff_of_true (goes passes).2 locked }
  | some device =>
      have ends := acquire_of_first walked listed first
      have some : ¬ ∀ offer ∈ matching filter candidates, offer.device? = none := by
        simp [← List.findSome?_eq_none_iff, first]
      refine
        { listed := result, offered, unopened
          acquired := ?_
          missed := by simp [first]
          waits := iff_of_false (by simp [(ends []).1]) some
          told := fun passes => iff_of_false (ends passes).2 some }
      intro other same passes
      cases first.symm.trans same
      exact (ends passes).1

end Passes

/-- A disk, a device that the user may not open, and one that can be opened and is listed
twice. -/
theorem concur_roster :
    let disk : Descriptor := ⟨0x0781, ⟨0x08, 0x06, 0x50⟩, "disk", true⟩
    let locked : Descriptor := ⟨0x18D1, .bootloader, "A", false⟩
    let free : Descriptor := ⟨0x18D1, .bootloader, "B", true⟩
    let pass : RosterPass Unit := .ok [⟨disk, ()⟩, ⟨locked, ()⟩, ⟨free, ()⟩, ⟨free, ()⟩]
    ∃ candidates, (Roster.bus Unit).Offers Roster.offers ∧ Roster.offers pass = .ok candidates ∧
      Concur (Roster.bus Unit) .any pass candidates ∧
      (matching .any candidates).map Offer.descriptor = [locked, free, free] := by
  intro disk locked free pass
  exact ⟨_, Roster.offers_bus, rfl, concur_list_acquire Roster.offers_bus rfl .any, by decide⟩

end FlashHost.Discovery
