import FlashHost.Proofs.Wire.Following
import FlashHost.Proofs.Wire.Position

/-!
# Half-duplex discipline

Host and device take turns. The host reads only while a reply is due to it, writes a
command only when nothing is outstanding and a piece of a payload only on invitation,
and makes no further call after one that came out wrong.
-/

set_option autoImplicit false

namespace FlashHost

/-- Nothing is outstanding: the last call, if there was one, read an OKAY. -/
def Settled (exchanges : List Exchange) : Prop :=
  exchanges = [] ∨ ∃ earlier outcome,
    exchanges = earlier ++ [.read outcome] ∧ heard outcome = .reply .okay

/-- The calls announced a payload, read the invitation to send exactly so many bytes, and
had the first so many pieces taken whole. -/
def Invited (payload : ByteArray) (count : Nat) (exchanges : List Exchange) : Prop :=
  ∃ outcome, heard outcome = .reply (.data payload.size) ∧
    exchanges = (Parcel.announcement payload).taken :: .read outcome ::
      ((Parcel.pieces payload).take count).map Parcel.taken

/-- A call comes out as it has to: what is written is taken whole, and what is read is
information or the next of the replies that the operations call for. -/
def Expected (operations : List Operation) (before : List Exchange) : Exchange → Prop
  | .write data outcome => outcome = .ok data.size
  | .read outcome =>
    heard outcome = .info ∨
      ∃ due, (replies operations)[(finals (received before)).length]? = some due ∧
        heard outcome = .reply due

/-- The discipline of the calls made for some operations, for each call by those before
it. Information that was read does not count. -/
structure HalfDuplex (operations : List Operation) (exchanges : List Exchange) : Prop where
  /-- A read comes after a command that was taken whole, or a payload that was. -/
  read : ∀ before outcome after, exchanges = before ++ .read outcome :: after →
    ∃ earlier current, essential before = earlier ++ current ∧ Settled earlier ∧
      ((∃ parcel, (plan operations)[(written earlier).length]? = some parcel ∧
          parcel.IsCommand ∧ current = [parcel.taken]) ∨
        ∃ payload,
          (plan operations)[(written earlier).length]? = some (.announcement payload) ∧
          Invited payload (Parcel.count payload) current)
  /-- A write hands over the next parcel of the wire plan: a command when nothing is
  outstanding, and a piece of a payload after the invitation and all earlier pieces. -/
  write : ∀ before data outcome after, exchanges = before ++ .write data outcome :: after →
    ∃ parcel, (plan operations)[(written before).length]? = some parcel ∧
      data = parcel.bytes ∧
      match parcel with
      | .piece payload number =>
        ∃ earlier current, essential before = earlier ++ current ∧ Settled earlier ∧
          Invited payload number current
      | _ => Settled before
  /-- Nothing comes after a call that came out wrong. -/
  stop : ∀ before call after, exchanges = before ++ call :: after →
    ¬ Expected operations before call → after = []

theorem settled_essential {exchanges : List Exchange} (settled : Settled exchanges) :
    Settled (essential exchanges) := by
  obtain rfl | ⟨earlier, outcome, rfl, okay⟩ := settled
  · exact .inl rfl
  · refine .inr ⟨essential earlier, outcome, ?_, okay⟩
    rw [essential_append, essential_final (by simp [okay]), essential_nil]

/-- A turn of several rounds stands in one of them, after the turns of the earlier ones. -/
theorem Round.mem_turns {rounds : List Round} {done rest : List Turn} {turn : Turn}
    (parts : rounds.flatMap Round.turns = done ++ turn :: rest) :
    ∃ earlier round later inner outer,
      rounds = earlier ++ round :: later ∧ done = earlier.flatMap Round.turns ++ inner ∧
        round.turns = inner ++ turn :: outer := by
  induction rounds generalizing done with
  | nil => simp at parts
  | cons round rounds ih =>
      rw [List.flatMap_cons] at parts
      obtain ⟨others, rfl, tail⟩ | ⟨others, own, tail⟩ := List.append_eq_append_iff.mp parts
      · obtain ⟨earlier, found, later, inner, outer, rfl, rfl, same⟩ := ih tail
        exact ⟨round :: earlier, found, later, inner, outer, rfl, by simp, same⟩
      · obtain ⟨rfl, following⟩ | ⟨outer, rfl, -⟩ := List.cons_eq_append_iff.mp tail
        · have located : rounds.flatMap Round.turns = [] ++ turn :: rest := following
          obtain ⟨earlier, found, later, inner, outer, rfl, empty, same⟩ := ih located
          refine ⟨round :: earlier, found, later, inner, outer, rfl, ?_, same⟩
          rw [List.flatMap_cons, List.append_assoc, ← empty, own, List.append_nil, List.append_nil]
        · exact ⟨[], round, rounds, done, outer, rfl, rfl, own⟩

@[simp] theorem Parcel.length_pieces (payload : ByteArray) :
    (Parcel.pieces payload).length = Parcel.count payload := by
  simp [Parcel.pieces]

private theorem Parcel.pieces_split {payload : ByteArray} {earlier later : List Parcel} {parcel : Parcel}
    (parts : Parcel.pieces payload = earlier ++ parcel :: later) :
    parcel = .piece payload earlier.length ∧
      earlier = (Parcel.pieces payload).take earlier.length := by
  constructor
  · have within : earlier.length < Parcel.count payload := by
      rw [← Parcel.length_pieces, parts]
      simp
    have there : (Parcel.pieces payload)[earlier.length]? = some parcel := by simp [parts]
    rw [Parcel.pieces, List.getElem?_map, List.getElem?_range within] at there
    exact (Option.some.inj there).symm
  · simp [parts]

private theorem sends_split {parcels : List Parcel} {inner outer : List Turn} {turn last : Turn}
    (parts : parcels.map .send ++ [last] = inner ++ turn :: outer) :
    (∃ earlier parcel later, parcels = earlier ++ parcel :: later ∧
      inner = earlier.map .send ∧ turn = .send parcel) ∨
    (inner = parcels.map .send ∧ turn = last) := by
  induction parcels generalizing inner with
  | nil =>
      cases inner with
      | nil =>
          cases parts
          exact .inr ⟨rfl, rfl⟩
      | cons first inner => simp at parts
  | cons parcel parcels ih =>
      cases inner with
      | nil =>
          cases parts
          exact .inl ⟨[], parcel, parcels, rfl, rfl, rfl⟩
      | cons first inner =>
          obtain ⟨rfl, tail⟩ := List.cons.inj parts
          obtain ⟨earlier, found, later, rfl, rfl, same⟩ | ⟨rfl, same⟩ := ih tail
          · exact .inl ⟨parcel :: earlier, found, later, rfl, rfl, same⟩
          · exact .inr ⟨rfl, same⟩

/-- The turns of an announced transfer: the announcement, the invitation, one of the pieces,
or the OKAY for all of them. -/
theorem transfer_split {announced : Parcel} {invitation : Due} {pieces : List Parcel}
    {inner outer : List Turn} {turn : Turn}
    (parts : [.send announced, .await invitation] ++ pieces.map .send ++ [.await .okay] =
      inner ++ turn :: outer) :
    (inner = [] ∧ turn = .send announced) ∨
    (inner = [.send announced] ∧ turn = .await invitation) ∨
    (∃ earlier parcel later, pieces = earlier ++ parcel :: later ∧
      inner = .send announced :: .await invitation :: earlier.map .send ∧ turn = .send parcel) ∨
    (inner = .send announced :: .await invitation :: pieces.map .send ∧ turn = .await .okay) := by
  simp only [List.cons_append, List.nil_append] at parts
  match inner with
  | [] => exact .inl ⟨rfl, (List.cons.inj parts).1.symm⟩
  | [first] =>
      simp only [List.cons_append, List.nil_append, List.cons.injEq] at parts
      obtain ⟨rfl, rfl, -⟩ := parts
      exact .inr (.inl ⟨rfl, rfl⟩)
  | first :: second :: inner =>
      simp only [List.cons_append, List.cons.injEq] at parts
      obtain ⟨rfl, rfl, tail⟩ := parts
      obtain ⟨earlier, parcel, later, same, rfl, rfl⟩ | ⟨rfl, rfl⟩ := sends_split tail
      · exact .inr (.inr (.inl ⟨earlier, parcel, later, same, rfl, rfl⟩))
      · exact .inr (.inr (.inr ⟨rfl, rfl⟩))

/-- The places in a round at which a call is made. -/
theorem Round.turns_cases {round : Round} {inner outer : List Turn} {turn : Turn}
    (parts : round.turns = inner ++ turn :: outer) :
    (∃ parcel tail, round.parcels = parcel :: tail ∧ parcel.IsCommand ∧
      ((inner = [] ∧ turn = .send parcel) ∨ ∃ due, inner = [.send parcel] ∧ turn = .await due)) ∨
    ∃ payload number, round.parcels = .announcement payload :: Parcel.pieces payload ∧
      inner = .send (.announcement payload) :: .await (.data payload.size) ::
        ((Parcel.pieces payload).take number).map .send ∧
      (turn = .send (.piece payload number) ∨
        (number = Parcel.count payload ∧ turn = .await .okay)) := by
  cases round with
  | command line =>
      refine .inl ⟨.command line, [], rfl, trivial, ?_⟩
      match inner with
      | [] => exact .inl ⟨rfl, (List.cons.inj parts).1.symm⟩
      | [first] =>
          obtain ⟨rfl, tail⟩ := List.cons.inj parts
          exact .inr ⟨.okay, rfl, (List.cons.inj tail).1.symm⟩
      | first :: second :: inner => simp [turns] at parts
  | payload data =>
      obtain ⟨rfl, rfl⟩ | ⟨rfl, rfl⟩ | ⟨earlier, parcel, later, pieces, rfl, rfl⟩ | ⟨rfl, rfl⟩ :=
        transfer_split parts
      · exact .inl ⟨.announcement data, _, rfl, trivial, .inl ⟨rfl, rfl⟩⟩
      · exact .inl ⟨.announcement data, _, rfl, trivial, .inr ⟨.data data.size, rfl, rfl⟩⟩
      · obtain ⟨rfl, front⟩ := Parcel.pieces_split pieces
        exact .inr ⟨data, earlier.length, rfl, by rw [← front], .inl rfl⟩
      · have whole : (Parcel.pieces data).take (Parcel.count data) = Parcel.pieces data := by
          rw [← Parcel.length_pieces, List.take_length]
        exact .inr ⟨data, Parcel.count data, rfl, by rw [whole], .inr ⟨rfl, rfl⟩⟩

private theorem Round.turns_end (round : Round) : ∃ front, round.turns = front ++ [.await .okay] := by
  cases round with
  | command line => exact ⟨[_], rfl⟩
  | payload data => exact ⟨_, rfl⟩

private theorem Completes.last_read {due : Due} {exchanges : List Exchange}
    (answered : Completes [.await due] exchanges) :
    ∃ earlier outcome, exchanges = earlier ++ [.read outcome] ∧ heard outcome = .reply due := by
  generalize single : [Turn.await due] = turns at answered
  induction answered with
  | nil => cases single
  | send _ _ _ => cases single
  | info silent _ ih =>
      obtain ⟨earlier, outcome, rfl, came⟩ := ih single
      exact ⟨_ :: earlier, outcome, rfl, came⟩
  | reply answered rest _ =>
      cases single
      cases rest
      exact ⟨[], _, rfl, answered⟩

theorem Completes.settled {rounds : List Round} {exchanges : List Exchange}
    (whole : Completes (rounds.flatMap Round.turns) exchanges) : Settled exchanges := by
  obtain rfl | ⟨earlier, round, rfl⟩ := rounds.eq_nil_or_concat
  · cases whole
    exact .inl rfl
  · obtain ⟨front, own⟩ := round.turns_end
    have parts : (earlier.concat round).flatMap Round.turns =
        (earlier.flatMap Round.turns ++ front) ++ [.await .okay] := by
      simp [own]
    rw [parts] at whole
    obtain ⟨before, after, rfl, -, last⟩ := whole.split
    obtain ⟨others, outcome, rfl, okay⟩ := last.last_read
    exact .inr ⟨before ++ others, outcome, by simp, okay⟩

theorem forall₂_ends_send {parcels : List Parcel} {exchanges : List Exchange}
    (ends : List.Forall₂ Turn.Ends (parcels.map .send) exchanges) :
    exchanges = parcels.map Parcel.taken := by
  induction parcels generalizing exchanges with
  | nil => cases ends; rfl
  | cons parcel parcels ih =>
      cases ends with
      | cons first rest => rw [first, ih rest]; rfl

theorem invited_of_ends {payload : ByteArray} {number : Nat} {exchanges : List Exchange}
    (ends : List.Forall₂ Turn.Ends (.send (.announcement payload) ::
      .await (.data payload.size) :: ((Parcel.pieces payload).take number).map .send) exchanges) :
    Invited payload number exchanges := by
  cases ends with
  | @cons _ announced _ _ taken ends =>
      cases ends with
      | @cons _ invited _ pieces came ends =>
          cases invited with
          | write data outcome => exact came.elim
          | read outcome =>
              rw [Turn.Ends] at taken
              exact ⟨outcome, came, by rw [taken, forall₂_ends_send ends]⟩

namespace StandsIn

variable {rounds : List Round} {before : List Exchange} {call : Exchange} {ended : Prop}

/-- The round in which a call is made. Earlier rounds are completed, and so are the earlier
turns of this one. -/
theorem round (stands : StandsIn (rounds.flatMap Round.turns) before call ended) :
    ∃ (earlier : List Round) (current : Round) (rest inner : List Turn) (turn : Turn)
        (outer : List Turn) (start middle waited : List Exchange),
      rounds.flatMap Round.turns = earlier.flatMap Round.turns ++ (inner ++ turn :: rest) ∧
        current.turns = inner ++ turn :: outer ∧ before = start ++ (middle ++ waited) ∧
        Completes (earlier.flatMap Round.turns) start ∧ Completes inner middle ∧
        turn.Waits waited ∧ turn.Makes call := by
  obtain ⟨done, turn, rest, front, waited, parts, rfl, completed, waits, makes, -⟩ := stands
  obtain ⟨earlier, current, later, inner, outer, rfl, rfl, own⟩ := Round.mem_turns parts
  obtain ⟨start, middle, rfl, first, second⟩ := completed.split
  refine ⟨earlier, current, rest, inner, turn, outer, start, middle, waited, ?_, own, by simp,
    first, second, waits, makes⟩
  rw [parts, List.append_assoc]

theorem read {outcome : Except TransportFault ByteArray}
    (stands : StandsIn (rounds.flatMap Round.turns) before (.read outcome) ended) :
    ∃ earlier current, essential before = earlier ++ current ∧ Settled earlier ∧
      ((∃ parcel, (rounds.flatMap Round.parcels)[(written earlier).length]? = some parcel ∧
          parcel.IsCommand ∧ current = [parcel.taken]) ∨
        ∃ payload,
          (rounds.flatMap Round.parcels)[(written earlier).length]? = some (.announcement payload) ∧
          Invited payload (Parcel.count payload) current) := by
  obtain ⟨earlier, current, rest, inner, turn, outer, start, middle, waited, parts, own, rfl,
    first, second, waits, makes⟩ := stands.round
  rw [← Round.sends_flatMap_turns, parts]
  cases turn with
  | send parcel => exact makes.elim
  | await due =>
      refine ⟨essential start, essential middle, by simp [waits.1],
        settled_essential first.settled, ?_⟩
      rw [written_essential]
      have ends := second.essential_ends
      obtain ⟨parcel, _, -, command, ⟨-, sent⟩ | ⟨_, rfl, -⟩⟩ |
        ⟨payload, number, -, rfl, sent | ⟨rfl, -⟩⟩ := Round.turns_cases own
      · cases sent
      · have sent : essential middle = [parcel].map Parcel.taken := forall₂_ends_send ends
        exact .inl ⟨parcel, first.sends_at _ _, command, sent⟩
      · cases sent
      · exact .inr ⟨payload, first.sends_at _ _, invited_of_ends ends⟩

theorem write {data : ByteArray} {outcome : Except TransportFault Nat}
    (stands : StandsIn (rounds.flatMap Round.turns) before (.write data outcome) ended) :
    ∃ parcel, (rounds.flatMap Round.parcels)[(written before).length]? = some parcel ∧
      data = parcel.bytes ∧
      match parcel with
      | .piece payload number =>
        ∃ earlier current, essential before = earlier ++ current ∧ Settled earlier ∧
          Invited payload number current
      | _ => Settled before := by
  obtain ⟨earlier, current, rest, inner, turn, outer, start, middle, waited, parts, own, rfl,
    first, second, waits, makes⟩ := stands.round
  rw [← Round.sends_flatMap_turns, parts]
  cases turn with
  | await due => exact makes.elim
  | send parcel =>
      cases waits
      rw [List.append_nil, ← List.append_assoc]
      refine ⟨parcel, (first.append second).sends_at _ _, makes, ?_⟩
      obtain ⟨_, _, -, command, ⟨rfl, sent⟩ | ⟨_, -, awaited⟩⟩ |
        ⟨payload, number, -, rfl, sent | ⟨-, awaited⟩⟩ := Round.turns_cases own
      · cases sent
        cases second
        cases parcel with
        | command line => simpa using first.settled
        | announcement payload => simpa using first.settled
        | piece payload number => exact command.elim
      · cases awaited
      · cases sent
        exact ⟨essential start, essential middle, by simp, settled_essential first.settled,
          invited_of_ends second.essential_ends⟩
      · cases awaited

end StandsIn

/-- A call that does not end the conversation comes out as the operations want it to. -/
theorem StandsIn.expected {operations : List Operation} {before : List Exchange} {call : Exchange}
    {ended : Prop} (stands : StandsIn ((rounds operations).flatMap Round.turns) before call ended) :
    Expected operations before call ∨ ended := by
  obtain ⟨done, turn, rest, start, waited, parts, rfl, completed, waits, makes, right⟩ := stands
  refine right.imp_left fun fulfils => ?_
  cases turn with
  | send parcel =>
      cases call with
      | write data outcome => exact fulfils
      | read outcome => exact makes.elim
  | await due =>
      cases call with
      | write data outcome => exact makes.elim
      | read outcome =>
          refine fulfils.imp_right fun came => ⟨due, ?_, came⟩
          rw [replies, ← Round.awaits_flatMap_turns, parts, received_append, finals_append,
            waits.2.2, List.append_nil]
          exact completed.awaits_at due rest

namespace Protocol

/-- The discipline holds for every queue and every transport, however the device answers and
wherever the conversation ends. -/
theorem halfDuplex_execute {σ : Type} (transport : Transport σ) (queue : Queue) (device : σ) :
    HalfDuplex queue.toList (execute transport queue device).1.exchanges where
  read _ _ _ made := ((follows_execute transport queue device).standsIn made).read
  write _ _ _ _ made := ((follows_execute transport queue device).standsIn made).write
  stop _ _ _ made unexpected :=
    ((follows_execute transport queue device).standsIn made).expected.resolve_left unexpected

end Protocol

end FlashHost
