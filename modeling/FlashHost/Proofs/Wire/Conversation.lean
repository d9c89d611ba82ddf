import FlashHost.Proofs.Wire.Plan

/-!
# Conversations

When the calls of a transport go through a list of turns, and when they break off within
it. A conversation that breaks off has completed every earlier turn, and the turn at
which it does so is the last one that any of its calls belongs to.
-/

set_option autoImplicit false

namespace FlashHost

/-- The calls go through all turns: each parcel is taken whole, and each awaited reply
comes, after any amount of information. -/
inductive Completes : List Turn → List Exchange → Prop where
  | nil : Completes [] []
  | send {parcel turns exchanges} :
      parcel.Allowed → Completes turns exchanges →
      Completes (.send parcel :: turns)
        (.write parcel.bytes (.ok parcel.bytes.size) :: exchanges)
  | info {due turns outcome exchanges} :
      heard outcome = .info → Completes (.await due :: turns) exchanges →
      Completes (.await due :: turns) (.read outcome :: exchanges)
  | reply {due turns outcome exchanges} :
      heard outcome = .reply due → Completes turns exchanges →
      Completes (.await due :: turns) (.read outcome :: exchanges)

/-- The calls of the turn at which a conversation ends early: the parcel may not be sent
or is not taken whole, or something other than the awaited reply comes. -/
inductive Halts : Turn → List Exchange → Prop where
  | barred {parcel} : ¬ parcel.Allowed → Halts (.send parcel) []
  | cutShort {parcel outcome} :
      parcel.Allowed → outcome ≠ .ok parcel.bytes.size →
      Halts (.send parcel) [.write parcel.bytes outcome]
  | info {due outcome exchanges} :
      heard outcome = .info → Halts (.await due) exchanges →
      Halts (.await due) (.read outcome :: exchanges)
  | misread {due outcome} :
      heard outcome ≠ .info → heard outcome ≠ .reply due →
      Halts (.await due) [.read outcome]

def Breaks (turns : List Turn) (exchanges : List Exchange) : Prop :=
  ∃ done turn rest before last,
    turns = done ++ turn :: rest ∧ exchanges = before ++ last ∧
      Completes done before ∧ Halts turn last

namespace Completes

variable {turns : List Turn} {exchanges : List Exchange}

theorem append {later : List Turn} {others : List Exchange}
    (first : Completes turns exchanges) (second : Completes later others) :
    Completes (turns ++ later) (exchanges ++ others) := by
  induction first with
  | nil => exact second
  | send allowed _ ih => exact .send allowed ih
  | info silent _ ih => exact .info silent ih
  | reply answered _ ih => exact .reply answered ih

private theorem uncons {turn : Turn} (whole : Completes (turn :: turns) exchanges) :
    ∃ before after, exchanges = before ++ after ∧
      Completes [turn] before ∧ Completes turns after := by
  generalize parts : turn :: turns = both at whole
  induction whole with
  | nil => cases parts
  | send allowed rest _ =>
      cases parts
      exact ⟨[_], _, rfl, .send allowed .nil, rest⟩
  | info silent _ ih =>
      obtain ⟨before, after, rfl, first, second⟩ := ih parts
      cases parts
      exact ⟨_ :: before, after, rfl, .info silent first, second⟩
  | reply answered rest _ =>
      cases parts
      exact ⟨[_], _, rfl, .reply answered .nil, rest⟩

theorem split {earlier later : List Turn} (whole : Completes (earlier ++ later) exchanges) :
    ∃ before after, exchanges = before ++ after ∧
      Completes earlier before ∧ Completes later after := by
  induction earlier generalizing exchanges with
  | nil => exact ⟨[], exchanges, rfl, .nil, whole⟩
  | cons turn earlier ih =>
      obtain ⟨head, tail, rfl, first, others⟩ := whole.uncons
      obtain ⟨before, after, rfl, second, rest⟩ := ih others
      exact ⟨head ++ before, after, by simp, first.append second, rest⟩

theorem written_eq (whole : Completes turns exchanges) :
    written exchanges = (sends turns).map Parcel.bytes := by
  induction whole with
  | nil => rfl
  | send _ _ ih => simpa using ih
  | info _ _ ih => simpa using ih
  | reply _ _ ih => simpa using ih

theorem allowed (whole : Completes turns exchanges) : ∀ parcel ∈ sends turns, parcel.Allowed := by
  induction whole with
  | nil => simp
  | send allowed _ ih => simpa using ⟨allowed, ih⟩
  | info _ _ ih => exact ih
  | reply _ _ ih => exact ih

theorem finals_eq (whole : Completes turns exchanges) :
    finals (received exchanges) = (awaits turns).map .reply := by
  induction whole with
  | nil => rfl
  | send _ _ ih => exact ih
  | info silent _ ih => simpa [finals_cons_info silent] using ih
  | reply answered _ ih =>
      rw [received_read, finals_cons_final (by simp [answered]), answered, ih]
      rfl

theorem last_heard (whole : Completes turns exchanges) :
    (received exchanges).getLast?.map heard = (awaits turns).getLast?.map .reply := by
  induction whole with
  | nil => rfl
  | send _ _ ih => exact ih
  | @info due turns outcome exchanges _ _ ih =>
      rw [awaits_await, List.getLast?_cons] at ih ⊢
      rw [← ih, received_read, List.getLast?_cons]
      cases last : (received exchanges).getLast? with
      | none => simp [last] at ih
      | some read => rfl
  | @reply due turns outcome exchanges answered _ ih =>
      rw [received_read, awaits_await, List.getLast?_cons, List.getLast?_cons]
      cases last : (received exchanges).getLast? <;>
        cases awaited : (awaits turns).getLast? <;> simp_all

theorem taken (whole : Completes turns exchanges) {data : ByteArray}
    {outcome : Except TransportFault Nat} (member : .write data outcome ∈ exchanges) :
    outcome = .ok data.size := by
  induction whole with
  | nil => cases member
  | send _ _ ih =>
      rcases List.mem_cons.mp member with same | member
      · cases same; rfl
      · exact ih member
  | info _ _ ih => exact ih (by simpa using member)
  | reply _ _ ih => exact ih (by simpa using member)

end Completes

namespace Halts

variable {turn : Turn} {exchanges : List Exchange}

/-- A reply that comes while another one is awaited ends the conversation. -/
theorem of_completes {came due : Due} (other : came ≠ due)
    (answered : Completes [.await came] exchanges) : Halts (.await due) exchanges := by
  generalize single : [Turn.await came] = turns at answered
  induction answered with
  | nil => cases single
  | send _ _ _ => cases single
  | info silent _ ih => exact .info silent (ih single)
  | reply answered rest _ =>
      cases single
      cases rest
      exact .misread (by simp [answered]) (by simp [answered, other])

theorem written_eq (last : Halts turn exchanges) :
    ∃ sent, sent <+: sends [turn] ∧ written exchanges = sent.map Parcel.bytes ∧
      ∀ parcel ∈ sent, parcel.Allowed := by
  induction last with
  | barred _ => exact ⟨[], List.nil_prefix, rfl, by simp⟩
  | @cutShort parcel _ allowed _ =>
      exact ⟨[parcel], by simp [sends], rfl, by simpa using allowed⟩
  | info _ _ ih => simpa using ih
  | misread _ _ => exact ⟨[], List.nil_prefix, rfl, by simp⟩

/-- A conversation that halts at a reply has heard something else in its place. -/
theorem finals_eq {due : Due} (last : Halts (.await due) exchanges) :
    ∃ came, came ≠ .reply due ∧ finals (received exchanges) = [came] := by
  generalize awaited : Turn.await due = turn at last
  induction last with
  | barred _ => cases awaited
  | cutShort _ _ => cases awaited
  | info silent _ ih =>
      obtain ⟨came, other, heard⟩ := ih awaited
      exact ⟨came, other, by rw [received_read, finals_cons_info silent, heard]⟩
  | misread final other =>
      cases awaited
      exact ⟨_, other, by rw [received_read, finals_cons_final final]; rfl⟩

end Halts

namespace Breaks

variable {turns : List Turn} {exchanges : List Exchange}

theorem written_eq (broken : Breaks turns exchanges) :
    ∃ sent, sent <+: sends turns ∧ written exchanges = sent.map Parcel.bytes ∧
      ∀ parcel ∈ sent, parcel.Allowed := by
  obtain ⟨done, turn, rest, before, last, rfl, rfl, completed, halted⟩ := broken
  obtain ⟨sent, front, same, allowed⟩ := halted.written_eq
  refine ⟨sends done ++ sent, ?_, by simp [completed.written_eq, same], ?_⟩
  · have parts : sends (done ++ turn :: rest) = sends done ++ (sends [turn] ++ sends rest) := by
      rw [← sends_append, ← sends_append]; rfl
    rw [parts]
    exact (List.prefix_append_right_inj _).mpr (front.trans (List.prefix_append _ _))
  · intro parcel member
    rcases List.mem_append.mp member with early | late
    · exact completed.allowed parcel early
    · exact allowed parcel late

/-- A conversation does not break off as long as every parcel may be sent and is taken
whole, and the replies come as awaited. -/
theorem not_all_right (broken : Breaks turns exchanges)
    (allowed : ∀ parcel ∈ sends turns, parcel.Allowed)
    (taken : ∀ data outcome, .write data outcome ∈ exchanges → outcome = .ok data.size)
    (more : List Heard) :
    ¬ (awaits turns).map .reply <+: finals (received exchanges) ++ more := by
  obtain ⟨done, turn, rest, before, last, rfl, rfl, completed, halted⟩ := broken
  intro answered
  cases halted with
  | barred barred => exact barred (allowed _ (by simp))
  | cutShort _ cut => exact cut (taken _ _ (by simp))
  | info silent halted =>
      obtain ⟨came, other, heard⟩ := halted.finals_eq
      simp [completed.finals_eq, finals_cons_info silent, heard, other.symm] at answered
  | misread final other =>
      simp [completed.finals_eq, finals_cons_final final, Ne.symm other] at answered

end Breaks

def Outcome.Follows {α : Type} (outcome : Outcome α) (turns : List Turn) : Prop :=
  match outcome.result with
  | .ok _ => Completes turns outcome.exchanges
  | .error _ => Breaks turns outcome.exchanges

namespace Outcome.Follows

variable {α : Type} {outcome : Outcome α} {turns : List Turn}

theorem completes (followed : outcome.Follows turns) {value : α}
    (succeeded : outcome.result = .ok value) : Completes turns outcome.exchanges := by
  rwa [Outcome.Follows, succeeded] at followed

theorem breaks (followed : outcome.Follows turns) {error : Error}
    (failed : outcome.result = .error error) : Breaks turns outcome.exchanges := by
  rwa [Outcome.Follows, failed] at followed

end Outcome.Follows

end FlashHost
