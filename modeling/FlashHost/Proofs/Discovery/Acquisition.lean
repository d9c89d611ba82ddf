import FlashHost.Program
import FlashHost.Proofs.Discovery.Offering
import Mathlib.Data.Prod.Lex
import Mathlib.Order.Bounds.Defs

/-!
# Acquisition of a device

Waiting for a device ends with the first candidate, of all that the passes offer in their
order, that the filter accepts and that can be opened. Nothing before it is left out, and
nothing after it is looked at.
-/

set_option autoImplicit false

namespace FlashHost

def Filter.verdict (filter : Filter) (device : Descriptor) : Verdict :=
  if filter.accepts device then .accept else .pass

def Offer.Eligible {η : Type} (filter : Filter) (offer : Offer η) : Prop :=
  filter.accepts offer.descriptor ∧ offer.device?.isSome

namespace Discovery

variable {ρ η : Type}

/-- What a pass offers; a failed one offers nothing. -/
def offered (offers : ρ → Except TransportFault (List (Offer η))) (pass : ρ) : List (Offer η) :=
  (offers pass).toOption.getD []

/-- The candidate at a place, which is the number of a pass and a position in it. -/
def offerAt? (offers : ρ → Except TransportFault (List (Offer η))) (passes : List ρ)
    (place : ℕ ×ₗ ℕ) : Option (Offer η) :=
  passes[(ofLex place).1]?.bind fun pass => (offered offers pass)[(ofLex place).2]?

def eligible (offers : ρ → Except TransportFault (List (Offer η))) (filter : Filter)
    (passes : List ρ) : Set (ℕ ×ₗ ℕ) :=
  {place | ∃ offer, offerAt? offers passes place = some offer ∧ offer.Eligible filter}

def sights (filter : Filter) (candidates : List (Offer η)) : List Event :=
  .enumerated :: candidates.map fun offer =>
    .visited offer.descriptor (filter.verdict offer.descriptor)

/-- What is seen of passes that all come to nothing: the user is told to wait after the first. -/
def vigil (seen : ρ → List Event) : List ρ → List Event
  | [] => []
  | first :: others => seen first ++ .waiting :: others.flatMap seen

/-- How a search comes out: with the first eligible candidate there is, after all passes before
its own and all candidates before it, or with none. -/
structure Settles (offers : ρ → Except TransportFault (List (Offer η))) (filter : Filter)
    (passes : List ρ) (run : Option (η × List ρ) × List Event) : Prop where
  found : ∀ number position, IsLeast (eligible offers filter passes) (toLex (number, position)) →
    ∃ pass offer device, passes[number]? = some pass ∧
      (offered offers pass)[position]? = some offer ∧ offer.device? = some device ∧
      run.1 = some (device, passes.drop (number + 1)) ∧
      search run.2 = vigil (fun pass => sights filter (offered offers pass)) (passes.take number) ++
        sights filter ((offered offers pass).take (position + 1)) ∧
      Program.noticeText (search run.2) = if number = 0 then "" else "< waiting for device >\n"
  missed : eligible offers filter passes = ∅ →
    run.1 = none ∧
      search run.2 = vigil (fun pass => sights filter (offered offers pass)) passes

theorem verdict_of_accepting {filter : Filter} {device : Descriptor} {state next : Unit}
    {verdict : Verdict} {notes : List Note}
    (told : accepting filter device state = (verdict, notes, next)) :
    verdict = filter.verdict device := by
  unfold accepting at told
  split at told
  case isTrue fits =>
    cases told
    exact (if_pos fits).symm
  case isFalse unfit =>
    cases told
    exact (if_neg unfit).symm

theorem verdict_eq_accept_iff {filter : Filter} {device : Descriptor} :
    filter.verdict device = .accept ↔ filter.accepts device := by
  simp [Filter.verdict]

open Program in
@[simp] theorem noticeText_append (earlier later : List Event) :
    noticeText (earlier ++ later) = noticeText earlier ++ noticeText later := by
  simp [noticeText]

open Program in
theorem noticeText_sights (filter : Filter) (candidates : List (Offer η)) :
    noticeText (sights filter candidates) = "" := by
  induction candidates with
  | nil => rfl
  | cons offer candidates ih =>
      simp only [noticeText, sights, List.map_cons, String.join_cons] at ih ⊢
      simpa using ih

/-- Of passes that come to nothing, only the word to wait is read. -/
theorem noticeText_vigil (filter : Filter) (offered : ρ → List (Offer η)) (passes : List ρ) :
    Program.noticeText (vigil (fun pass => sights filter (offered pass)) passes) =
      if passes = [] then "" else Program.waitingText := by
  have silent (others : List ρ) :
      Program.noticeText (others.flatMap fun pass => sights filter (offered pass)) = "" := by
    induction others with
    | nil => rfl
    | cons pass others ih =>
        rw [List.flatMap_cons, noticeText_append, noticeText_sights, ih, String.append_empty]
  have told : Program.noticeText [.waiting] = Program.waitingText := by decide
  cases passes with
  | nil => rfl
  | cons first others =>
      rw [vigil, ← List.singleton_append, noticeText_append, noticeText_append, noticeText_sights,
        silent, told, if_neg (List.cons_ne_nil _ _), String.empty_append, String.append_empty]

variable {filter : Filter} {before after : List (Offer η)} {opened : Option η} {last : Unit}
  {seen : List (Descriptor × Verdict)}

def judged (filter : Filter) (candidates : List (Offer η)) : List (Descriptor × Verdict) :=
  candidates.map fun offer => (offer.descriptor, filter.verdict offer.descriptor)

theorem sights_eq (filter : Filter) (candidates : List (Offer η)) :
    sights filter candidates =
      .enumerated :: (judged filter candidates).map fun (device, verdict) =>
        .visited device verdict := by
  rw [sights, judged, List.map_map]
  rfl

/-- Candidates that are not eligible are passed over one by one. -/
theorem walks_append (idle : ∀ offer ∈ before, ¬ offer.Eligible filter)
    (walked : Walks (accepting filter) () (before ++ after) opened last seen) :
    ∃ rest, Walks (accepting filter) () after opened last rest ∧
      seen = judged filter before ++ rest := by
  induction before generalizing seen with
  | nil => exact ⟨seen, walked, rfl⟩
  | cons offer before ih =>
      obtain ⟨own, others⟩ := List.forall_mem_cons.mp idle
      cases walked with
      | opened told there =>
          -- The visitor accepted it, so that it would have been eligible.
          have accepted := verdict_eq_accept_iff.mp (verdict_of_accepting told).symm
          exact absurd ⟨accepted, by simp [there]⟩ own
      | skipped told _ later =>
          obtain ⟨rest, walked, rfl⟩ := ih others later
          obtain rfl := verdict_of_accepting told
          exact ⟨rest, walked, rfl⟩

/-- Where there is nothing to open, everything is looked at. -/
theorem walks_idle (idle : ∀ offer ∈ before, ¬ offer.Eligible filter)
    (walked : Walks (accepting filter) () before opened last seen) :
    opened = none ∧ seen = judged filter before := by
  rw [← before.append_nil] at walked
  obtain ⟨rest, ended, rfl⟩ := walks_append idle walked
  cases ended
  exact ⟨rfl, by simp⟩

/-- The first candidate that is eligible is opened, and none after it is looked at. -/
theorem walks_chosen (idle : ∀ offer ∈ before, ¬ offer.Eligible filter) {chosen : Offer η}
    (fit : chosen.Eligible filter)
    (walked : Walks (accepting filter) () (before ++ chosen :: after) opened last seen) :
    opened = chosen.device? ∧ seen = judged filter (before ++ [chosen]) := by
  obtain ⟨rest, ended, rfl⟩ := walks_append idle walked
  have accepted := verdict_eq_accept_iff.mpr fit.1
  cases ended with
  | opened told there => exact ⟨there.symm, by simp [judged, accepted]⟩
  | skipped told missing _ =>
      have none := missing ((verdict_of_accepting told).trans accepted)
      exact absurd fit.2 (by simp [none])

variable {bus : Bus ρ η} {offers : ρ → Except TransportFault (List (Offer η))}
  {pass : ρ} {passes : List ρ} {device : η} {told : Bool}

theorem offered_of_ok {candidates : List (Offer η)} (listed : offers pass = .ok candidates) :
    offered offers pass = candidates := by
  rw [offered, listed]
  rfl

/-- A pass in which nothing is eligible opens nothing, and all of it is seen. -/
theorem enumerate_idle (walked : bus.Offers offers)
    (idle : ∀ offer ∈ offered offers pass, ¬ offer.Eligible filter) :
    (∀ device, (bus.enumerate (accepting filter) () pass).result ≠ .ok (some device)) ∧
      search (bus.enumerate (accepting filter) () pass).events =
        sights filter (offered offers pass) := by
  cases listed : offers pass with
  | error fault =>
      obtain ⟨result, -, events⟩ := walked.failed (accepting filter) () listed
      rw [result, events, offered, listed]
      exact ⟨nofun, rfl⟩
  | ok candidates =>
      rw [offered_of_ok listed] at idle ⊢
      obtain ⟨opened, seen, shown, result, events⟩ := walked.walked (accepting filter) () listed
      obtain ⟨rfl, rfl⟩ := walks_idle idle shown
      rw [result, events, sights_eq]
      exact ⟨nofun, rfl⟩

/-- A pass with something eligible opens the first such candidate, and is seen up to it. -/
theorem enumerate_chosen (walked : bus.Offers offers) {chosen : Offer η}
    (parts : offered offers pass = before ++ chosen :: after)
    (idle : ∀ offer ∈ before, ¬ offer.Eligible filter) (fit : chosen.Eligible filter) :
    (bus.enumerate (accepting filter) () pass).result = .ok chosen.device? ∧
      search (bus.enumerate (accepting filter) () pass).events =
        sights filter (before ++ [chosen]) := by
  cases listed : offers pass with
  | error fault => simp [offered, listed, Except.toOption] at parts
  | ok candidates =>
      rw [offered_of_ok listed] at parts
      subst parts
      obtain ⟨opened, seen, shown, result, events⟩ := walked.walked (accepting filter) () listed
      obtain ⟨rfl, rfl⟩ := walks_chosen idle fit shown
      exact ⟨result, by rw [events, sights_eq]⟩

theorem acquireFrom_opened
    (found : (bus.enumerate (accepting filter) () pass).result = .ok (some device)) :
    acquireFrom bus filter told (pass :: passes) =
      (some (device, passes), (bus.enumerate (accepting filter) () pass).events) := by
  rw [acquireFrom, found]

/-- After a pass in which nothing was opened, the next one is looked at. The user is told to
wait unless that was said before. -/
theorem acquireFrom_unopened (told : Bool) (passes : List ρ)
    (missed : ∀ device, (bus.enumerate (accepting filter) () pass).result ≠ .ok (some device)) :
    (acquireFrom bus filter told (pass :: passes)).1 = (acquireFrom bus filter true passes).1 ∧
      search (acquireFrom bus filter told (pass :: passes)).2 =
        search (bus.enumerate (accepting filter) () pass).events ++
          (if told then [] else [.waiting]) ++ search (acquireFrom bus filter true passes).2 := by
  rw [acquireFrom]
  cases ended : (bus.enumerate (accepting filter) () pass).result with
  | error fault => cases told <;> simp
  | ok opened =>
      cases opened with
      | some device => exact absurd ended (missed device)
      | none => cases told <;> simp

section Waiting

variable (walked : bus.Offers offers)

include walked

/-- Once the user was told to wait, passes that come to nothing are seen and no more. -/
theorem acquireFrom_idle {earlier : List ρ}
    (idle : ∀ pass ∈ earlier, ∀ offer ∈ offered offers pass, ¬ offer.Eligible filter)
    (passes : List ρ) :
    (acquireFrom bus filter true (earlier ++ passes)).1 =
        (acquireFrom bus filter true passes).1 ∧
      search (acquireFrom bus filter true (earlier ++ passes)).2 =
        earlier.flatMap (fun pass => sights filter (offered offers pass)) ++
          search (acquireFrom bus filter true passes).2 := by
  induction earlier with
  | nil => exact ⟨rfl, rfl⟩
  | cons pass earlier ih =>
      obtain ⟨own, others⟩ := List.forall_mem_cons.mp idle
      obtain ⟨missed, seen⟩ := enumerate_idle walked own
      obtain ⟨result, events⟩ := acquireFrom_unopened true (earlier ++ passes) missed
      obtain ⟨later, after⟩ := ih others
      refine ⟨result.trans later, ?_⟩
      rw [List.cons_append, events, seen, after]
      simp

/-- Passes that come to nothing are seen from the first on, and the user is told to wait. -/
theorem acquire_idle {earlier : List ρ}
    (idle : ∀ pass ∈ earlier, ∀ offer ∈ offered offers pass, ¬ offer.Eligible filter)
    (passes : List ρ) :
    ∃ told, (acquire bus filter (earlier ++ passes)).1 = (acquireFrom bus filter told passes).1 ∧
      search (acquire bus filter (earlier ++ passes)).2 =
        vigil (fun pass => sights filter (offered offers pass)) earlier ++
          search (acquireFrom bus filter told passes).2 := by
  cases earlier with
  | nil => exact ⟨false, rfl, rfl⟩
  | cons first earlier =>
      obtain ⟨own, others⟩ := List.forall_mem_cons.mp idle
      obtain ⟨missed, seen⟩ := enumerate_idle walked own
      obtain ⟨result, events⟩ := acquireFrom_unopened false (earlier ++ passes) missed
      obtain ⟨later, after⟩ := acquireFrom_idle walked others passes
      refine ⟨true, result.trans later, ?_⟩
      rw [acquire, List.cons_append, events, seen, after]
      simp [vigil]

private theorem acquire_missed
    (idle : ∀ pass ∈ passes, ∀ offer ∈ offered offers pass, ¬ offer.Eligible filter) :
    (acquire bus filter passes).1 = none ∧
      search (acquire bus filter passes).2 =
        vigil (fun pass => sights filter (offered offers pass)) passes := by
  obtain ⟨told, result, events⟩ := acquire_idle walked idle []
  rw [List.append_nil] at result events
  rw [result, events, acquireFrom]
  exact ⟨rfl, List.append_nil _⟩

theorem acquire_chosen {earlier : List ρ} {chosen : Offer η}
    (idle : ∀ pass ∈ earlier, ∀ offer ∈ offered offers pass, ¬ offer.Eligible filter)
    (parts : offered offers pass = before ++ chosen :: after)
    (passed : ∀ offer ∈ before, ¬ offer.Eligible filter) (fit : filter.accepts chosen.descriptor)
    (there : chosen.device? = some device) (passes : List ρ) :
    (acquire bus filter (earlier ++ pass :: passes)).1 = some (device, passes) ∧
      search (acquire bus filter (earlier ++ pass :: passes)).2 =
        vigil (fun pass => sights filter (offered offers pass)) earlier ++
          sights filter (before ++ [chosen]) := by
  obtain ⟨told, result, events⟩ := acquire_idle walked idle (pass :: passes)
  obtain ⟨found, seen⟩ := enumerate_chosen walked parts passed ⟨fit, by simp [there]⟩
  rw [there] at found
  rw [acquireFrom_opened found] at result events
  exact ⟨result, by rw [events, seen]⟩

end Waiting

theorem mem_eligible {number position : ℕ} {offer : Offer η} (listed : passes[number]? = some pass)
    (shown : (offered offers pass)[position]? = some offer) (fit : offer.Eligible filter) :
    toLex (number, position) ∈ eligible offers filter passes := by
  refine ⟨offer, ?_, fit⟩
  simp only [offerAt?, ofLex_toLex, listed, Option.bind_some, shown]

/-- No candidate at an earlier place than the least is eligible. -/
theorem idle_of_least {number position : ℕ}
    (least : IsLeast (eligible offers filter passes) (toLex (number, position))) :
    (∀ pass ∈ passes.take number, ∀ offer ∈ offered offers pass, ¬ offer.Eligible filter) ∧
      ∀ pass, passes[number]? = some pass →
        ∀ offer ∈ (offered offers pass).take position, ¬ offer.Eligible filter := by
  constructor
  · intro pass member offer shown fit
    obtain ⟨earlier, before, rfl⟩ := List.mem_take_iff_getElem.mp member
    obtain ⟨place, within, rfl⟩ := List.mem_iff_getElem.mp shown
    have fits := mem_eligible (List.getElem?_eq_getElem _) (List.getElem?_eq_getElem within) fit
    have late := Prod.Lex.toLex_le_toLex.mp (least.2 fits)
    dsimp only at late
    omega
  · intro pass listed offer shown fit
    obtain ⟨place, before, rfl⟩ := List.mem_take_iff_getElem.mp shown
    have fits := mem_eligible listed (List.getElem?_eq_getElem _) fit
    have late := Prod.Lex.toLex_le_toLex.mp (least.2 fits)
    dsimp only at late
    omega

/-- Waiting for a device ends with the first eligible candidate of all passes, in the order of
the passes and of the candidates in each, and goes on as long as there is none. -/
theorem settles_acquire (walked : bus.Offers offers) (filter : Filter) (passes : List ρ) :
    Settles offers filter passes (acquire bus filter passes) where
  found number position least := by
    obtain ⟨offer, present, fit⟩ := least.1
    obtain ⟨earlier, before⟩ := idle_of_least least
    obtain ⟨pass, listed, shown⟩ := Option.bind_eq_some_iff.mp present
    simp only [ofLex_toLex] at listed shown
    obtain ⟨device, there⟩ := Option.isSome_iff_exists.mp fit.2
    obtain ⟨inside, rfl⟩ := List.getElem?_eq_some_iff.mp listed
    obtain ⟨within, rfl⟩ := List.getElem?_eq_some_iff.mp shown
    have parts := List.take_append_drop position (offered offers passes[number])
    rw [List.drop_eq_getElem_cons within] at parts
    obtain ⟨result, events⟩ := acquire_chosen walked earlier parts.symm (before _ listed)
      fit.1 there (passes.drop (number + 1))
    rw [← List.drop_eq_getElem_cons inside, List.take_append_drop] at result events
    rw [List.take_append_getElem within] at events
    refine ⟨_, _, device, listed, shown, there, result, events, ?_⟩
    rw [events, noticeText_append, noticeText_sights, noticeText_vigil, String.append_empty]
    have some : passes ≠ [] := List.length_pos_iff.mp (Nat.zero_lt_of_lt inside)
    simp [Program.waitingText, List.take_eq_nil_iff, some]
  missed empty := by
    refine acquire_missed walked fun pass member offer shown fit => ?_
    obtain ⟨number, inside, rfl⟩ := List.mem_iff_getElem.mp member
    obtain ⟨position, within, rfl⟩ := List.mem_iff_getElem.mp shown
    have fits :=
      mem_eligible (List.getElem?_eq_getElem inside) (List.getElem?_eq_getElem within) fit
    rw [empty] at fits
    exact fits

/-- A bus that fails, then has a disk only, and then a device that the user may not open before
one that can be opened. -/
theorem settles_roster :
    let disk : Descriptor := ⟨0x0781, ⟨0x08, 0x06, 0x50⟩, "disk", true⟩
    let locked : Descriptor := ⟨0x18D1, .bootloader, "A", false⟩
    let free : Descriptor := ⟨0x18D1, .bootloader, "B", true⟩
    let passes : List (RosterPass Unit) :=
      [.error (.other "busy"), .ok [⟨disk, ()⟩], .ok [⟨locked, ()⟩, ⟨free, ()⟩, ⟨free, ()⟩],
        .ok [⟨free, ()⟩]]
    let run := acquire (Roster.bus Unit) .any passes
    (Roster.bus Unit).Offers Roster.offers ∧ Settles Roster.offers .any passes run ∧
      run.1.map (fun found => (found.1.position, found.2.length)) = some (1, 1) := by
  intro disk locked free passes run
  exact ⟨Roster.offers_bus, settles_acquire Roster.offers_bus .any passes, by decide⟩

end Discovery

end FlashHost
