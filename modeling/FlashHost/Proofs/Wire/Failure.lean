import FlashHost.Proofs.Outcome
import FlashHost.Proofs.Protocol.Reply
import FlashHost.Proofs.Protocol.Session
import FlashHost.Proofs.Wire.Conversation
import FlashHost.Proofs.Wire.Parcel

/-!
# What ends a round

A round that is broken off ends with an error, which is settled by the turn at which that
happens and by the last call made in it. The sessions that carry out a round raise this error
and no other one, whatever the device does.
-/

set_option autoImplicit false

namespace FlashHost

/-- What a read raises that brings no reply at all. -/
inductive Misread : Except TransportFault ByteArray → Error → Prop where
  | unread (fault) : Misread (.error fault) (.transport fault)
  | undecodable {packet fault} :
      Response.parse packet = .error fault → Misread (.ok packet) (.protocol fault)
  | refused {packet reason} :
      Response.parse packet = .ok (.fail reason) → Misread (.ok packet) (.remote none reason)

/-- What a round raises that halts at a turn, by the last call made in that turn. -/
inductive Round.Raises : Round → Turn → Option Exchange → Error → Prop where
  | commandTooLarge {line} :
      64 < line.utf8ByteSize →
      Raises (.command line) (.send (.command line)) none (.commandTooLarge line)
  | payloadTooLarge {payload} :
      2 ^ 32 ≤ payload.size →
      Raises (.payload payload) (.send (.announcement payload)) none
        (.payloadTooLarge payload.size)
  | unwritten {round parcel fault} :
      Raises round (.send parcel) (some (.write parcel.bytes (.error fault))) (.transport fault)
  | commandCutShort {round parcel count} :
      parcel.IsCommand → count ≠ parcel.bytes.size →
      Raises round (.send parcel) (some (.write parcel.bytes (.ok count)))
        (.transport (.commandCutShort count parcel.bytes.size))
  | pieceCutShort {payload number count} :
      count ≠ (Parcel.piece payload number).bytes.size →
      Raises (.payload payload) (.send (.piece payload number))
        (some (.write (Parcel.piece payload number).bytes (.ok count)))
        (.transport (.payloadCutShort (number * 2 ^ 20 + count) payload.size))
  | misread {round due outcome error} :
      Misread outcome error → Raises round (.await due) (some (.read outcome)) error
  | unexpectedData {line packet size} :
      Response.parse packet = .ok (.data size) →
      Raises (.command line) (.await .okay) (some (.read (.ok packet)))
        (.protocol (.unexpectedData line))
  | expectedData {payload packet text} :
      Response.parse packet = .ok (.okay text) →
      Raises (.payload payload) (.await (.data payload.size)) (some (.read (.ok packet)))
        (.protocol .expectedData)
  | sizeMismatch {payload packet accepted} :
      Response.parse packet = .ok (.data accepted) → accepted ≠ payload.size →
      Raises (.payload payload) (.await (.data payload.size)) (some (.read (.ok packet)))
        (.protocol (.sizeMismatch payload.size accepted))
  | dataAfterPayload {payload packet size} :
      Response.parse packet = .ok (.data size) →
      Raises (.payload payload) (.await .okay) (some (.read (.ok packet)))
        (.protocol .dataAfterPayload)

/-- The calls go through some of the turns of a round and halt at the next one, with the error
that is raised there. -/
def Aborts (round : Round) (turns : List Turn) (exchanges : List Exchange) (error : Error) :
    Prop :=
  ∃ done turn rest before last,
    turns = done ++ turn :: rest ∧ exchanges = before ++ last ∧ Completes done before ∧
      Halts turn last ∧ round.Raises turn last.getLast? error

namespace Aborts

variable {round : Round} {turns : List Turn} {exchanges : List Exchange} {error : Error}

theorem of_halts {turn : Turn} (halted : Halts turn exchanges)
    (raised : round.Raises turn exchanges.getLast? error) (rest : List Turn) :
    Aborts round (turn :: rest) exchanges error :=
  ⟨[], turn, rest, [], exchanges, rfl, rfl, .nil, halted, raised⟩

theorem after {earlier : List Turn} {others : List Exchange}
    (first : Completes earlier others) (second : Aborts round turns exchanges error) :
    Aborts round (earlier ++ turns) (others ++ exchanges) error := by
  obtain ⟨done, turn, rest, before, last, rfl, rfl, completed, ended⟩ := second
  exact ⟨earlier ++ done, turn, rest, others ++ before, last, by simp, by simp,
    first.append completed, ended⟩

theorem extend (aborted : Aborts round turns exchanges error) (later : List Turn) :
    Aborts round (turns ++ later) exchanges error := by
  obtain ⟨done, turn, rest, before, last, rfl, rfl, ended⟩ := aborted
  exact ⟨done, turn, rest ++ later, before, last, by simp, rfl, ended⟩

theorem breaks (aborted : Aborts round turns exchanges error) : Breaks turns exchanges := by
  obtain ⟨done, turn, rest, before, last, parts, calls, completed, halted, -⟩ := aborted
  exact ⟨done, turn, rest, before, last, parts, calls, completed, halted⟩

end Aborts

/-- An activity that has these turns of a round to go through does so, or aborts the round. -/
def Outcome.Conducts {α : Type} (outcome : Outcome α) (round : Round) (turns : List Turn) : Prop :=
  match outcome.result with
  | .ok _ => Completes turns outcome.exchanges
  | .error error => Aborts round turns outcome.exchanges error

theorem Outcome.Conducts.after {α : Type} {outcome : Outcome α} {round : Round}
    {earlier turns : List Turn} {events : List Event}
    (first : Completes earlier (events.filterMap Event.exchange?))
    (second : outcome.Conducts round turns) :
    (outcome.after events).Conducts round (earlier ++ turns) := by
  rcases outcome with ⟨result, others⟩
  cases result with
  | ok value => simpa [Outcome.Conducts] using first.append second
  | error error => simpa [Outcome.Conducts] using Aborts.after first second

def Session.Conducts {σ α : Type} (session : Session σ α) (round : Round) (turns : List Turn) :
    Prop :=
  ∀ device, (session device).1.Conducts round turns

namespace Session

variable {σ α β : Type} {round : Round} {turns later : List Turn}

theorem conducts_pure (value : α) : (pure value : Session σ α).Conducts round [] :=
  fun _ => Completes.nil

theorem conducts_report (progress : Progress) :
    (report progress : Session σ Unit).Conducts round [] :=
  fun _ => Completes.nil

private theorem conducts_note (text : Note) : (note text : Session σ Unit).Conducts round [] :=
  fun _ => Completes.nil

theorem Conducts.bind {first : Session σ α} {next : α → Session σ β}
    (head : first.Conducts round turns) (tail : ∀ value, (next value).Conducts round later) :
    (first >>= next).Conducts round (turns ++ later) := by
  intro device
  have conducted := head device
  rcases ran : first device with ⟨⟨result, events⟩, after⟩
  rw [ran] at conducted
  cases result with
  | error error =>
      rw [bind_error ran]
      exact Aborts.extend conducted later
  | ok value =>
      rw [bind_ok ran]
      exact .after conducted (tail value after)

theorem Conducts.after_silence {first : Session σ α} {next : α → Session σ β}
    (silent : first.Conducts round []) (tail : ∀ value, (next value).Conducts round turns) :
    (first >>= next).Conducts round turns :=
  silent.bind tail

theorem Conducts.before_silence {first : Session σ α} {next : α → Session σ β}
    (head : first.Conducts round turns) (silent : ∀ value, (next value).Conducts round []) :
    (first >>= next).Conducts round turns := by
  simpa using head.bind silent

/-- A session fails at once, with an error that a round raises at a turn after some call. -/
def FailsAs (session : Session σ α) (round : Round) (turn : Turn) (call : Option Exchange) :
    Prop :=
  ∃ error, session = fail error ∧ round.Raises turn call error

theorem FailsAs.bind {first : Session σ α} {next : α → Session σ β} {turn : Turn}
    {call : Option Exchange} (failed : first.FailsAs round turn call) :
    (first >>= next).FailsAs round turn call := by
  obtain ⟨error, rfl, raised⟩ := failed
  exact ⟨error, rfl, raised⟩

theorem FailsAs.conducts {session : Session σ α} {parcel : Parcel}
    (failed : session.FailsAs round (.send parcel) none) (barred : ¬ parcel.Allowed) :
    session.Conducts round (.send parcel :: turns) := by
  obtain ⟨error, rfl, raised⟩ := failed
  intro device
  exact .of_halts (.barred barred) raised turns

theorem FailsAs.after {session : Session σ α} {turn : Turn} {call : Exchange}
    {events : List Event} (failed : session.FailsAs round turn (some call))
    (halted : Halts turn (events.filterMap Event.exchange?))
    (last : (events.filterMap Event.exchange?).getLast? = some call) (device : σ) :
    ((session device).1.after events).Conducts round (turn :: turns) := by
  obtain ⟨error, rfl, raised⟩ := failed
  have aborted := Aborts.of_halts halted (last ▸ raised) turns
  simpa [Outcome.Conducts, fail, lift, Outcome.fail] using aborted

private theorem write_shown (transport : Transport σ) (data : ByteArray) (device : σ) :
    ∃ outcome events, write transport data device =
        (⟨outcome.mapError .transport, events⟩, (transport.write data device).device) ∧
      events.filterMap Event.exchange? = [.write data outcome] :=
  ⟨_, _, rfl, exchanges_written _ _ _⟩

/-- A parcel is sent in one write, and nothing happens after one that was cut short. -/
theorem conducts_write (transport : Transport σ) {parcel : Parcel} {next : Nat → Session σ α}
    (allowed : parcel.Allowed) (full : (next parcel.bytes.size).Conducts round turns)
    (short : ∀ count, count ≠ parcel.bytes.size →
      (next count).FailsAs round (.send parcel) (some (.write parcel.bytes (.ok count)))) :
    (write transport parcel.bytes >>= next).Conducts round (.send parcel :: turns) := by
  intro device
  obtain ⟨outcome, events, ran, shown⟩ := write_shown transport parcel.bytes device
  cases outcome with
  | error fault =>
      rw [bind_error ran, Outcome.Conducts, Outcome.exchanges_mk, shown]
      exact .of_halts (.cutShort allowed (by simp)) .unwritten turns
  | ok count =>
      rw [bind_ok ran]
      by_cases whole : count = parcel.bytes.size
      · subst whole
        have sent : Completes [.send parcel] (events.filterMap Event.exchange?) := by
          rw [shown]
          exact .send allowed .nil
        exact .after sent (full _)
      · refine (short count whole).after ?_ (by rw [shown]; rfl) _
        rw [shown]
        exact .cutShort allowed (by simpa using whole)

end Session

def Reply.due : Reply → Due
  | .okay _ => .okay
  | .data size => .data size

/-- The outcome of waiting for a reply: one came with the last packet, or none came that any
turn would await. -/
def Outcome.Answers (outcome : Outcome Reply) : Prop :=
  match outcome.result with
  | .ok reply => Completes [.await reply.due] outcome.exchanges ∧
      ∃ packet, outcome.exchanges.getLast? = some (.read (.ok packet)) ∧
        Response.parse packet = .ok reply.response
  | .error error => (∀ due, Halts (.await due) outcome.exchanges) ∧
      ∃ read, outcome.exchanges.getLast? = some (.read read) ∧ Misread read error

theorem Misread.heard_eq {read : Except TransportFault ByteArray} {error : Error}
    (misread : Misread read error) : heard read = .broken := by
  cases misread with
  | unread fault => rfl
  | undecodable parsed => simp [heard, parsed]
  | refused parsed => simp [heard, parsed]

theorem Reply.heard_eq {reply : Reply} {packet : ByteArray}
    (parsed : Response.parse packet = .ok reply.response) :
    heard (.ok packet) = .reply reply.due := by
  cases reply <;> simp [heard, parsed, Reply.response, Reply.due]

namespace Outcome.Answers

variable {events : List Event} {packet : ByteArray}

theorem of_misread {read : Except TransportFault ByteArray} {error : Error}
    (shown : events.filterMap Event.exchange? = [.read read]) (misread : Misread read error) :
    (Outcome.mk (.error error) events).Answers := by
  refine ⟨fun due => ?_, read, ?_, misread⟩
  · rw [Outcome.exchanges_mk, shown]
    exact .misread (by simp [misread.heard_eq]) (by simp [misread.heard_eq])
  · rw [Outcome.exchanges_mk, shown]
    rfl

private theorem of_reply {reply : Reply} (shown : events.filterMap Event.exchange? = [.read (.ok packet)])
    (parsed : Response.parse packet = .ok reply.response) :
    (Outcome.mk (.ok reply) events).Answers := by
  refine ⟨?_, packet, ?_, parsed⟩
  · rw [Outcome.exchanges_mk, shown]
    exact .reply (Reply.heard_eq parsed) .nil
  · rw [Outcome.exchanges_mk, shown]
    rfl

private theorem after_info {text : String} {outcome : Outcome Reply}
    (shown : events.filterMap Event.exchange? = [.read (.ok packet)])
    (parsed : Response.parse packet = .ok (.info text)) (later : outcome.Answers) :
    (outcome.after events).Answers := by
  have silent : heard (.ok packet) = .info := by simp [heard, parsed]
  have calls : (outcome.after events).exchanges = .read (.ok packet) :: outcome.exchanges := by
    rw [Outcome.exchanges_after, shown]
    rfl
  unfold Outcome.Answers at later ⊢
  rw [Outcome.result_after, calls]
  cases ended : outcome.result with
  | ok reply =>
      rw [ended] at later
      obtain ⟨came, last, shownLast, content⟩ := later
      exact ⟨.info silent came, last, by rw [List.getLast?_cons, shownLast]; rfl, content⟩
  | error error =>
      rw [ended] at later
      obtain ⟨halted, last, shownLast, misread⟩ := later
      exact ⟨fun due => .info silent (halted due), last,
        by rw [List.getLast?_cons, shownLast]; rfl, misread⟩

end Outcome.Answers

namespace Protocol

open Session

variable {σ β : Type} {transport : Transport σ} {round : Round} {turns : List Turn}

theorem read_failed {buffer : ByteArray} {device next : σ} {error : Error}
    {events : List Event}
    (failed : Session.read transport buffer device = (⟨.error error, events⟩, next)) :
    ∃ fault, error = .transport fault ∧
      events.filterMap Event.exchange? = [.read (.error fault)] := by
  simp only [Session.read, Prod.mk.injEq, Outcome.mk.injEq] at failed
  obtain ⟨⟨result, rfl⟩, -⟩ := failed
  cases outcome : (transport.read buffer device).result with
  | error fault =>
      rw [outcome] at result
      cases result
      exact ⟨fault, rfl, exchanges_read _ _⟩
  | ok value => simp [outcome] at result

theorem read_received {buffer filled : ByteArray} {size : Nat} {device next : σ}
    {events : List Event}
    (received : Session.read transport buffer device = (⟨.ok (size, filled), events⟩, next)) :
    events.filterMap Event.exchange? = [.read (.ok (filled.extract 0 size))] := by
  simp only [Session.read, Prod.mk.injEq, Outcome.mk.injEq] at received
  obtain ⟨⟨result, rfl⟩, -⟩ := received
  cases outcome : (transport.read buffer device).result with
  | error fault => simp [outcome] at result
  | ok value =>
      rw [outcome] at result
      cases result
      exact exchanges_read _ _

theorem received_noted {buffer filled : ByteArray} {size : Nat} {device next : σ}
    {events : List Event}
    (received : Session.read transport buffer device = (⟨.ok (size, filled), events⟩, next))
    (note : Note) : (events ++ [Event.noted note]).filterMap Event.exchange? =
      [.read (.ok (filled.extract 0 size))] := by
  simp [read_received received, Event.exchange?]

theorem answers_readReplyInto (transport : Transport σ) (buffer : ByteArray) (device : σ) :
    (readReplyInto transport buffer device).1.Answers := by
  apply readReplyInto_induction fun _ _ run => run.1.Answers
  case unread =>
    intro buffer device error events next failed
    obtain ⟨fault, rfl, shown⟩ := read_failed failed
    exact .of_misread shown (.unread fault)
  case undecodable =>
    intro buffer device size filled events next fault received parsed
    exact .of_misread (read_received received) (.undecodable parsed)
  case refused =>
    intro buffer device size filled events next reason received parsed
    exact .of_misread (received_noted received _) (.refused parsed)
  case replied =>
    intro buffer device size filled events next reply received parsed
    exact .of_reply (received_noted received _) parsed
  case informed =>
    intro buffer device size filled events next text rest last received parsed answered
    refine .after_info ?_ parsed answered
    simp [read_received received, Event.exchange?]

/-- A reply that is awaited is the only one after which a session goes on. -/
theorem conducts_readReply (transport : Transport σ) {due : Due} {next : Reply → Session σ β}
    (right : ∀ reply, reply.due = due → (next reply).Conducts round turns)
    (wrong : ∀ reply packet, reply.due ≠ due → Response.parse packet = .ok reply.response →
      (next reply).FailsAs round (.await due) (some (.read (.ok packet)))) :
    (readReply transport >>= next).Conducts round (.await due :: turns) := by
  intro device
  have answered : (readReply transport device).1.Answers :=
    answers_readReplyInto transport packetBuffer device
  rcases ran : readReply transport device with ⟨⟨result, events⟩, after⟩
  rw [ran] at answered
  cases result with
  | error error =>
      obtain ⟨halted, read, last, misread⟩ := answered
      rw [bind_error ran]
      exact .of_halts (halted due) (last ▸ .misread misread) turns
  | ok reply =>
      obtain ⟨came, packet, last, content⟩ := answered
      rw [bind_ok ran]
      by_cases awaited : reply.due = due
      · subst awaited
        exact .after came (right reply rfl after)
      · exact (wrong reply packet awaited content).after (.of_completes awaited came) last after

/-- A command is sent in one write, unless it is too long, and then its reply is awaited. -/
theorem conducts_sendCommand (transport : Transport σ) {line : String} {parcel : Parcel}
    {due : Due} {next : Reply → Session σ β} (same : parcel.bytes = line.toUTF8)
    (command : parcel.IsCommand) (limit : parcel.Allowed ↔ line.utf8ByteSize ≤ 64)
    (barred : 64 < line.utf8ByteSize → round.Raises (.send parcel) none (.commandTooLarge line))
    (right : ∀ reply, reply.due = due → (next reply).Conducts round turns)
    (wrong : ∀ reply packet, reply.due ≠ due → Response.parse packet = .ok reply.response →
      (next reply).FailsAs round (.await due) (some (.read (.ok packet)))) :
    (sendCommand transport line >>= next).Conducts round (.send parcel :: .await due :: turns) := by
  unfold sendCommand
  split
  case isTrue long =>
    have failed : (Session.fail (.commandTooLarge line) : Session σ Reply).FailsAs round
        (.send parcel) none := ⟨_, rfl, barred long⟩
    exact failed.bind.conducts fun allowed => Nat.not_lt.mpr (limit.mp allowed) long
  case isFalse short =>
    have allowed : parcel.Allowed := limit.mpr (by simpa [maxCommandSize] using short)
    have size : parcel.bytes.size = line.utf8ByteSize := by rw [same]; simp
    simp only [bind_assoc]
    refine .after_silence (conducts_note _) fun _ => ?_
    rw [← same]
    apply conducts_write transport allowed
    · rw [if_neg (by simp [size])]
      exact conducts_readReply transport right wrong
    · intro count cut
      rw [if_pos (by simpa [size] using cut), ← size]
      have failed : (Session.fail (.transport (.commandCutShort count parcel.bytes.size)) :
          Session σ Reply).FailsAs round (.send parcel)
            (some (.write parcel.bytes (.ok count))) := ⟨_, rfl, .commandCutShort command cut⟩
      exact failed.bind

theorem conducts_expectOkay (transport : Transport σ) (line : String) :
    (expectOkay transport line).Conducts (.command line) (Round.command line).turns := by
  have same : (Parcel.command line).bytes = line.toUTF8 := rfl
  apply conducts_sendCommand transport same trivial Iff.rfl .commandTooLarge
  · intro reply awaited
    cases reply with
    | okay text => exact conducts_pure text
    | data size => cases awaited
  · intro reply packet other content
    cases reply with
    | okay text => exact absurd rfl other
    | data size => exact ⟨_, rfl, .unexpectedData content⟩

/-- The pieces of a payload from one of them on, when all before it were taken whole. -/
theorem conducts_sendPieces (transport : Transport σ) (payload : ByteArray) {first left : Nat}
    (whole : first + left = Parcel.count payload) {sent : Nat}
    (reached : left ≠ 0 → sent = first * 2 ^ 20) :
    (sendPieces transport payload.size sent
        (((List.range' first left).map (.piece payload)).map Parcel.bytes)).Conducts
      (.payload payload) (((List.range' first left).map (.piece payload)).map .send) := by
  induction left generalizing first sent with
  | zero => exact conducts_pure ()
  | succ left ih =>
      have start : sent = first * 2 ^ 20 := reached (by simp)
      have allowed : (Parcel.piece payload first).Allowed := trivial
      rw [List.range'_succ, List.map_cons, List.map_cons, List.map_cons, sendPieces]
      apply conducts_write transport allowed
      · rw [if_neg (by simp)]
        refine .after_silence (conducts_report _) fun _ => ih (by omega) fun more => ?_
        rw [Parcel.size_piece (by omega), start, Nat.succ_mul]
      · intro count cut
        rw [if_pos cut, start]
        exact ⟨_, rfl, .pieceCutShort cut⟩

theorem conducts_download (transport : Transport σ) (payload : ByteArray) :
    (download transport payload).Conducts (.payload payload) (Round.payload payload).turns := by
  have parts : (Round.payload payload).turns =
      .send (.announcement payload) :: .await (.data payload.size) ::
        ((Parcel.pieces payload).map .send ++ [.await .okay]) := rfl
  rw [parts]
  simp only [download]
  split
  case isTrue large =>
    have failed : (Session.fail (.payloadTooLarge payload.size) : Session σ Unit).FailsAs
        (.payload payload) (.send (.announcement payload)) none := ⟨_, rfl, .payloadTooLarge large⟩
    exact failed.conducts (Nat.not_lt.mpr large)
  case isFalse small =>
    have bound : payload.size < 2 ^ 32 := Nat.lt_of_not_le small
    have same := Parcel.bytes_announcement bound
    have short : (downloadCommand payload.size).utf8ByteSize ≤ 64 := by simp
    -- Nothing below depends on the digits, and unification would compute them.
    generalize downloadCommand payload.size = line at same short ⊢
    apply conducts_sendCommand transport same trivial
    · exact ⟨fun _ => short, fun _ => bound⟩
    · intro long
      omega
    · intro reply awaited
      cases reply with
      | okay text => cases awaited
      | data accepted =>
          cases awaited
          dsimp only
          rw [if_neg (by simp)]
          refine .after_silence (conducts_report _) fun _ => ?_
          rw [← Parcel.map_bytes_pieces, Parcel.pieces, List.range_eq_range']
          refine .bind (conducts_sendPieces transport payload (Nat.zero_add _) (by simp)) ?_
          intro _
          refine .after_silence (conducts_report _) fun _ => conducts_readReply transport ?_ ?_
          · intro reply awaited
            cases reply with
            | okay text => exact conducts_pure ()
            | data size => cases awaited
          · intro reply packet other content
            cases reply with
            | okay text => exact absurd rfl other
            | data size => exact ⟨_, rfl, .dataAfterPayload content⟩
    · intro reply packet other content
      cases reply with
      | okay text => exact ⟨_, rfl, .expectedData content⟩
      | data accepted =>
          have mismatch : accepted ≠ payload.size := fun same => other (by rw [same]; rfl)
          dsimp only
          rw [if_pos mismatch]
          exact ⟨_, rfl, .sizeMismatch content mismatch⟩

end Protocol

end FlashHost
