import FlashHost.Proofs.Device.Script
import FlashHost.Proofs.Protocol.Relation
import FlashHost.Proofs.Usb.Transfers
import FlashHost.Proofs.Wire.Sending

/-!
# Queues over USB

A connection conveys what the protocol says and nothing else: a run over USB is the run on a
plain transport that gives the answers of the transfers, and below each of its calls lies one
transfer. So the bytes that a device takes are the front of the wire plan.
-/

set_option autoImplicit false

namespace FlashHost

def withoutTransfers (events : List Event) : List Event :=
  events.filter fun
    | .transferred _ => false
    | _ => true

@[simp] theorem withoutTransfers_append (earlier later : List Event) :
    withoutTransfers (earlier ++ later) = withoutTransfers earlier ++ withoutTransfers later :=
  List.filter_append ..

@[simp] theorem withoutTransfers_transferred (listed : List Transfer) :
    withoutTransfers (listed.map .transferred) = [] := by
  simp [withoutTransfers]

private theorem reports_withoutTransfers (events : List Event) :
    reports (withoutTransfers events) = reports events := by
  induction events with
  | nil => rfl
  | cons event events ih =>
      have own : reports (withoutTransfers [event]) = reports [event] := by cases event <;> rfl
      rw [← List.singleton_append, withoutTransfers_append, reports_append, reports_append, own, ih]

namespace Usb

structure Replay where
  writes : List (Except TransportFault Nat)
  reads : List (Except TransportFault ByteArray)

namespace Replay

/-- The next count answers a write. One of no bytes is complete as it is. -/
def write (data : ByteArray) (replay : Replay) : Call Replay Nat :=
  if data.size = 0 then ⟨.ok 0, [], replay⟩
  else
    match replay.writes with
    | [] => ⟨.error (.other "no answer"), [], replay⟩
    | answer :: writes => ⟨answer, [], { replay with writes }⟩

def read (buffer : ByteArray) (replay : Replay) : Call Replay (Nat × ByteArray) :=
  match replay.reads with
  | [] => ⟨.error (.other "no answer"), [], replay⟩
  | .error fault :: reads => ⟨.error fault, [], { replay with reads }⟩
  | .ok packet :: reads => ⟨.ok (receive packet buffer), [], { replay with reads }⟩

def transport : Transport Replay where
  write := write
  read := read
  pending replay := replay.reads.length
  pending_read buffer replay received := by
    unfold read at received ⊢
    split at received <;> simp_all [Except.isOk, Except.toBool]

def record : Transfer → Replay → Replay
  | .outgoing _ _ outcome, rest =>
    { rest with writes := outcome.mapError Connection.transportFault :: rest.writes }
  | .incoming _ _ outcome, rest =>
    { rest with reads := outcome.mapError Connection.transportFault :: rest.reads }

def recordAll (transfers : List Transfer) (rest : Replay) : Replay :=
  transfers.foldr record rest

def of (transfers : List Transfer) : Replay :=
  recordAll transfers ⟨[], []⟩

private theorem recordAll_append (earlier later : List Transfer) (rest : Replay) :
    recordAll (earlier ++ later) rest = recordAll earlier (recordAll later rest) :=
  List.foldr_append ..

end Replay

variable {α β : Type} {connection : Connection}

/-- What a run on a connection comes to: the transfers are those of its calls, and from the
answers of the transfers the plain session makes the same run. -/
structure Conveys (connection : Connection) (run : Outcome α × Connection)
    (plain : Session Replay α) : Prop where
  endpoints : run.2.endpoints = connection.endpoints
  carries : Carries connection.endpoints run.1.exchanges (transfers run.1.events)
  replays : ∀ rest, plain (.recordAll (transfers run.1.events) rest) =
    (⟨run.1.result, withoutTransfers run.1.events⟩, rest)

theorem conveys_lift (connection : Connection) {outcome : Outcome α}
    (calm : outcome.exchanges = []) (still : transfers outcome.events = [])
    (plain : withoutTransfers outcome.events = outcome.events) :
    Conveys connection (Session.lift outcome connection) (Session.lift outcome) where
  endpoints := rfl
  carries := by
    rw [Session.lift, calm, still]
    exact .nil
  replays rest := by
    simp only [Session.lift, still, plain]
    rfl

theorem Conveys.after {middle : Connection} {run : Outcome α × Connection}
    {plain whole : Session Replay α} {events : List Event} (later : Conveys middle run plain)
    (kept : middle.endpoints = connection.endpoints)
    (carries : Carries connection.endpoints (events.filterMap Event.exchange?) (transfers events))
    (resumes : ∀ rest, whole (.recordAll (transfers events) rest) =
      ((plain rest).1.after (withoutTransfers events), (plain rest).2)) :
    Conveys connection (run.1.after events, run.2) whole where
  endpoints := later.endpoints.trans kept
  carries := by
    rw [Outcome.exchanges_after, Outcome.after, transfers_append]
    exact carries.append (kept ▸ later.carries)
  replays rest := by
    rw [Outcome.after, transfers_append, Replay.recordAll_append, resumes, later.replays]
    simp [Outcome.after]

theorem Conveys.bind {session : Session Connection α} {plain : Session Replay α}
    {next : α → Session Connection β} {after : α → Session Replay β}
    (head : Conveys connection (session connection) plain)
    (tail : ∀ value connection, Conveys connection (next value connection) (after value)) :
    Conveys connection ((session >>= next) connection) (plain >>= after) := by
  rcases ran : session connection with ⟨⟨result, events⟩, middle⟩
  rw [ran] at head
  obtain ⟨kept, carries, replays⟩ := head
  cases result with
  | error error =>
      rw [Session.bind_error ran]
      exact ⟨kept, carries, fun rest => Session.bind_error (replays rest)⟩
  | ok value =>
      rw [Session.bind_ok ran]
      exact (tail value middle).after kept carries fun rest => Session.bind_ok (replays rest)

theorem Conveys.attempt {session : Session Connection α} {plain : Session Replay α}
    (conveyed : Conveys connection (session connection) plain) :
    Conveys connection (session.attempt connection) plain.attempt where
  endpoints := conveyed.endpoints
  carries := conveyed.carries
  replays rest := Session.attempt_of_run (conveyed.replays rest)

def called {σ : Type} (event : Except TransportFault α → Event) (call : σ → Call σ α) :
    Session σ α :=
  fun device =>
    (⟨(call device).result.mapError .transport,
      (call device).transfers.map .transferred ++ [event (call device).result]⟩,
      (call device).device)

theorem conveys_called {event : Except TransportFault α → Event} {exchange : Exchange}
    {call : Connection → Call Connection α} {plain : Replay → Call Replay α}
    (shown : (event (call connection).result).exchange? = some exchange)
    (kept : (call connection).device.endpoints = connection.endpoints)
    (carries : Carries connection.endpoints [exchange] (call connection).transfers)
    (answered : ∀ rest, plain (.recordAll (call connection).transfers rest) =
      ⟨(call connection).result, [], rest⟩) :
    Conveys connection (called event call connection) (called event plain) := by
  -- What shows a call of a transport is no transfer.
  have still : transfers [event (call connection).result] = [] ∧
      withoutTransfers [event (call connection).result] = [event (call connection).result] := by
    cases told : event (call connection).result with
    | transferred transfer => simp [told, Event.exchange?] at shown
    | _ => exact ⟨rfl, rfl⟩
  obtain ⟨silent, alone⟩ := still
  refine ⟨kept, ?_, ?_⟩
  · have made : [event (call connection).result].filterMap Event.exchange? = [exchange] :=
      List.filterMap_cons_some shown
    simpa [called, silent, Function.comp_def, Event.exchange?, made] using carries
  · intro rest
    simp [called, silent, alone, answered]

private theorem pieces_of_empty {size : Nat} {data : ByteArray} (empty : data.size = 0) :
    pieces size data = [] := by
  rw [pieces, piecesFrom, if_neg (by omega)]

private theorem pieces_of_le {size : Nat} {data : ByteArray} (some : data.size ≠ 0)
    (small : data.size ≤ size) : pieces size data = [data] := by
  have whole : data.extract 0 (0 + size) = data := by
    ext1
    simp [Array.extract_eq_self_of_le, small]
  rw [pieces, piecesFrom, if_pos (by omega), whole, piecesFrom, if_neg (by omega)]

theorem endpoints_submit (data : ByteArray) (connection : Connection) :
    (connection.submit data).2.endpoints = connection.endpoints := by
  rw [Connection.submit]
  cases connection.outgoing <;> rfl

private theorem write_of_le {data : ByteArray} (some : data.size ≠ 0)
    (small : data.size ≤ maxTransferSize) (connection : Connection) :
    Connection.write data connection =
      ⟨(connection.submit data).1.mapError Connection.transportFault,
        [.outgoing connection.endpoints.outgoing data (connection.submit data).1],
        (connection.submit data).2⟩ := by
  rw [Connection.write, pieces_of_le some small, Connection.writePieces,
    ← endpoints_submit data connection]
  rcases connection.submit data with ⟨outcome, next⟩
  cases outcome with
  | error fault => rfl
  | ok count =>
      dsimp only [Connection.writePieces]
      rw [Nat.zero_add]
      split <;> rfl

theorem write_of_empty {data : ByteArray} (empty : data.size = 0) (connection : Connection) :
    Connection.write data connection = ⟨.ok 0, [], connection⟩ := by
  rw [Connection.write, pieces_of_empty empty, Connection.writePieces]

private theorem conveys_write {data : ByteArray} (small : data.size ≤ maxTransferSize)
    (connection : Connection) :
    Conveys connection (Session.write Connection.transport data connection)
      (Session.write Replay.transport data) := by
  change Conveys connection (called (.written data) (Connection.write data) connection)
    (called (.written data) (Replay.write data))
  by_cases empty : data.size = 0
  · have call := write_of_empty empty connection
    refine conveys_called rfl (by rw [call]) ?_ ?_
    · rw [call]
      exact .idle empty .nil
    · intro rest
      rw [call, Replay.write, if_pos empty]
      rfl
  · have call := write_of_le empty small connection
    refine conveys_called rfl (by rw [call]; exact endpoints_submit data connection) ?_ ?_
    · rw [call]
      exact .call (.write empty) .nil
    · intro rest
      rw [call, Replay.write, if_neg empty]
      rfl

/-- Reading is one transfer, and its answer is the packet that was read. -/
theorem read_eq (buffer : ByteArray) (connection : Connection) :
    ∃ outcome next, next.endpoints = connection.endpoints ∧
      (∀ packet, outcome = .ok packet → packet.size ≤ buffer.size) ∧
      Connection.read buffer connection =
        ⟨(outcome.mapError Connection.transportFault).map (receive · buffer),
          [.incoming connection.endpoints.incoming buffer.size outcome], next⟩ := by
  rw [Connection.read]
  match connection.incoming with
  | [] => exact ⟨.error .disconnected, connection, rfl, fun _ => nofun, rfl⟩
  | .fault fault :: incoming =>
      exact ⟨.error fault, { connection with incoming }, rfl, fun _ => nofun, rfl⟩
  | .packet data :: incoming =>
      refine ⟨.ok (data.extract 0 buffer.size), { connection with incoming }, rfl, ?_, rfl⟩
      rintro _ ⟨⟩
      rw [ByteArray.size_extract]
      omega

private theorem conveys_read {buffer : ByteArray} (sized : buffer.size = Protocol.maxPacketSize)
    (connection : Connection) :
    Conveys connection (Session.read Connection.transport buffer connection)
      (Session.read Replay.transport buffer) := by
  obtain ⟨outcome, next, kept, fits, call⟩ := read_eq buffer connection
  let packet : Except TransportFault (Nat × ByteArray) → Event := fun result =>
    .read (result.map fun received => received.2.extract 0 received.1)
  change Conveys connection (called packet (Connection.read buffer) connection)
    (called packet (Replay.read buffer))
  refine conveys_called rfl (by rw [call]; exact kept) ?_ ?_
  · rw [call, sized]
    have given : ((outcome.mapError Connection.transportFault).map (receive · buffer)).map
        (fun received => received.2.extract 0 received.1) =
          outcome.mapError Connection.transportFault := by
      cases outcome with
      | error fault => rfl
      | ok data =>
          have same : data.extract 0 buffer.size = data := by
            ext1
            simpa using Array.extract_eq_self_of_le (fits data rfl)
          exact congrArg Except.ok ((extract_receive data buffer).trans same)
    have carried : Carried connection.endpoints
        (.read (outcome.mapError Connection.transportFault))
        (.incoming connection.endpoints.incoming Protocol.maxPacketSize outcome) := .read
    rw [← given] at carried
    exact .call carried .nil
  · intro rest
    rw [call]
    cases outcome with
    | error fault => rfl
    | ok data => rfl

theorem size_of_read {buffer filled : ByteArray} {size : Nat} {next : Connection}
    {events : List Event}
    (ran : Session.read Connection.transport buffer connection =
      (⟨.ok (size, filled), events⟩, next)) : filled.size = buffer.size := by
  obtain ⟨outcome, _, -, -, call⟩ := read_eq buffer connection
  have own : Connection.transport.read buffer connection = _ := call
  rw [Session.read, own] at ran
  cases outcome with
  | error fault => cases ran
  | ok packet =>
      cases ran
      exact size_receive packet buffer

private theorem conveys_readReplyInto {buffer : ByteArray} (sized : buffer.size = Protocol.maxPacketSize)
    (connection : Connection) :
    Conveys connection (Protocol.readReplyInto Connection.transport buffer connection)
      (Protocol.readReplyInto Replay.transport buffer) := by
  -- Every packet uses up the bound on those to come.
  induction measure : Connection.transport.pending connection using Nat.strongRecOn
    generalizing buffer connection with
  | ind bound ih =>
      have call := conveys_read sized connection
      rcases ran : Session.read Connection.transport buffer connection with
        ⟨⟨result, events⟩, next⟩
      rw [ran] at call
      obtain ⟨kept, carries, replays⟩ := call
      cases result with
      | error error =>
          rw [Protocol.readReplyInto_of_error ran]
          exact ⟨kept, carries, fun rest => Protocol.readReplyInto_of_error (replays rest)⟩
      | ok received =>
          obtain ⟨size, filled⟩ := received
          have fewer : Connection.transport.pending next < bound :=
            measure ▸ Session.pending_lt_of_read ran
          have read (rest : Replay) := Protocol.readReplyInto_of_read (replays rest)
          rw [Protocol.readReplyInto_of_read ran]
          rw [Protocol.replyOf]
          simp only [Protocol.replyOf] at read
          cases parsed : Response.parse (filled.extract 0 size) with
          | error fault =>
              simp only [parsed] at read
              exact ⟨kept, carries, read⟩
          | ok response =>
              simp only [parsed] at read
              cases response with
              | info text =>
                  have later := ih _ fewer ((size_of_read ran).trans sized) next rfl
                  refine later.after kept
                    ((carries.append_silent rfl rfl).append_silent rfl rfl) ?_
                  intro rest
                  simpa [transfers, withoutTransfers] using read rest
              | _ =>
                  refine ⟨kept, carries.append_silent rfl rfl, ?_⟩
                  intro rest
                  simpa [transfers, withoutTransfers] using read rest

private theorem conveys_relation : Protocol.ExecutionRelation Connection.transport Replay.transport
    fun _ session plain => ∀ connection, Conveys connection (session connection) plain where
  pure _ connection := conveys_lift connection rfl rfl rfl
  fail _ connection := conveys_lift connection rfl rfl rfl
  note _ connection := conveys_lift connection rfl rfl rfl
  transfer _ _ connection := conveys_lift connection rfl rfl rfl
  write _ small := conveys_write small
  readReply := conveys_readReplyInto Array.size_replicate
  bind head tail connection := (head connection).bind tail
  report _ _ connection := conveys_lift connection rfl rfl rfl
  attempt conveyed connection := (conveyed connection).attempt

def planned (queue : Queue) : List UInt8 :=
  (plan queue.toList).flatMap fun parcel => octets parcel.bytes

/-- What is submitted in the course of an execution is the front of the wire plan. -/
theorem submitted_planned {outcome : Outcome Unit} {endpoints : EndpointPair}
    {listed : List Transfer} {queue : Queue}
    (carries : Carries endpoints outcome.exchanges listed)
    (followed : outcome.Follows ((rounds queue.toList).flatMap Round.turns)) :
    submitted listed <+: planned queue ∧
      (outcome.result = .ok () → submitted listed = planned queue) := by
  obtain ⟨sent, front, same, -, whole⟩ := followed.written_eq
  rw [Round.sends_flatMap_turns] at front whole
  have shown : submitted listed = sent.flatMap fun parcel => octets parcel.bytes := by
    rw [carries.submitted_eq, same, List.flatMap_map]
  constructor
  · obtain ⟨unsent, parts⟩ := front
    have parcels : plan queue.toList = sent ++ unsent := parts.symm
    rw [shown, planned, parcels, List.flatMap_append]
    exact List.prefix_append _ _
  · intro succeeded
    rw [shown, whole () succeeded]
    rfl

structure Transmits (queue : Queue) (connection : Connection) (run : Outcome Unit × Connection) :
    Prop where
  /-- Nothing is transferred but what the calls write and read, in whole and in their order. -/
  carries : Carries connection.endpoints run.1.exchanges (transfers run.1.events)
  /-- What the device has taken at some time is the front of the wire plan. -/
  taken : ∀ front rest bytes, transfers run.1.events = front ++ rest → Takes front bytes →
    bytes <+: planned queue
  /-- After a success the device has taken all of it. -/
  complete : run.1.result = .ok () →
    ∀ bytes, Takes (transfers run.1.events) bytes → bytes = planned queue
  stops : ∀ earlier transfer later, transfers run.1.events = earlier ++ transfer :: later →
    transfer.Cut → later = []
  /-- With the answers of the transfers, the run on a plain transport is the same. -/
  replayed :
    let plain := Protocol.execute Replay.transport queue (.of (transfers run.1.events))
    plain.1.result = run.1.result ∧ plain.1.events = withoutTransfers run.1.events ∧
      reports plain.1.events = reports run.1.events

/-- The execution of a queue on a connection transmits it, whatever becomes of the transfers. -/
theorem transmits_execute (queue : Queue) (connection : Connection) :
    Transmits queue connection (Protocol.execute Connection.transport queue connection) := by
  have conveyed := conveys_relation.execute queue connection
  have followed := Protocol.follows_execute Connection.transport queue connection
  generalize Protocol.execute Connection.transport queue connection = run at conveyed followed
  have carries := conveyed.carries
  have last := carries.cut_last followed
  obtain ⟨front, whole⟩ := submitted_planned carries followed
  refine ⟨carries, ?_, ?_, last, ?_⟩
  · intro earlier rest bytes parts takes
    have own : bytes <+: submitted earlier := by
      refine takes.isPrefix ?_
      intro before transfer after parted cut
      have nothing := last before transfer (after ++ rest) (by simp [parts, parted]) cut
      exact (List.append_eq_nil_iff.mp nothing).1
    have wider : submitted earlier <+: submitted (transfers run.1.events) := by
      rw [parts, submitted_append]
      exact List.prefix_append _ _
    exact own.trans (wider.trans front)
  · intro succeeded bytes takes
    have uncut := carries.uncut (followed.completes succeeded)
    exact (takes.eq_of_not_cut uncut).trans (whole succeeded)
  · intro plain
    have same : plain = _ := conveyed.replays ⟨[], []⟩
    rw [same]
    exact ⟨rfl, rfl, reports_withoutTransfers run.1.events⟩

end Usb

end FlashHost
