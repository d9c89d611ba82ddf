import FlashHost.Proofs.Progress.Phase
import FlashHost.Proofs.Wire.Failure

/-!
# The course of a download

The calls of a transport and the reports to the user in the order in which they mix: a
command is written and a reply awaited, and each piece of a payload is reported before
the next one is written. Every download takes one of these courses, whatever the device
does.
-/

set_option autoImplicit false

namespace FlashHost

/-- The calls of a transport and the reports to the user among some events. -/
def acts (events : List Event) : List Event :=
  events.filter fun
    | .written _ _ | .read _ | .progress _ => true
    | _ => false

/-- What a read that gives more than information makes of the wait for a reply. -/
inductive Settles : Except TransportFault ByteArray → Except Error Reply → Prop where
  | reply {packet} (reply : Reply) :
      Response.parse packet = .ok reply.response → Settles (.ok packet) (.ok reply)
  | misread {outcome error} : Misread outcome error → Settles outcome (.error error)

/-- Information is passed on until something else comes. -/
inductive Hearing : List Event → Except Error Reply → Prop where
  | last {outcome result} : Settles outcome result → Hearing [.read outcome] result
  | info {packet text steps result} :
      Response.parse packet = .ok (.info text) → Hearing steps result →
      Hearing (.read (.ok packet) :: .progress (.info text) :: steps) result

def firstFinal (exchanges : List Exchange) : Option (Except TransportFault ByteArray) :=
  (received exchanges).find? (heard · ≠ .info)

/-- A command is written whole before its reply is awaited. -/
inductive Asking (line : String) : List Event → Except Error Reply → Prop where
  | unwritten {fault} :
      Asking line [.written line.toUTF8 (.error fault)] (.error (.transport fault))
  | cutShort {count} :
      count ≠ line.utf8ByteSize →
      Asking line [.written line.toUTF8 (.ok count)]
        (.error (.transport (.commandCutShort count line.utf8ByteSize)))
  | whole {steps result} :
      Hearing steps result →
      Asking line (.written line.toUTF8 (.ok line.utf8ByteSize) :: steps) result

/-- The pieces of a payload from a number on are written in order, and reported one by one, up
to the first that is not written whole. -/
inductive Sending (payload : ByteArray) : Nat → List Event → Except Error Unit → Prop where
  | done {number} : Parcel.count payload ≤ number → Sending payload number [] (.ok ())
  | unwritten {number fault} :
      number < Parcel.count payload →
      Sending payload number [.written (Parcel.piece payload number).bytes (.error fault)]
        (.error (.transport fault))
  | cutShort {number count} :
      number < Parcel.count payload → count ≠ (Parcel.piece payload number).bytes.size →
      Sending payload number [.written (Parcel.piece payload number).bytes (.ok count)]
        (.error (.transport (.payloadCutShort (number * 2 ^ 20 + count) payload.size)))
  | piece {number steps result} :
      number < Parcel.count payload → Sending payload (number + 1) steps result →
      Sending payload number
        (.written (Parcel.piece payload number).bytes
            (.ok (Parcel.piece payload number).bytes.size) ::
          .progress
            (.transferProgress (number * 2 ^ 20 + (Parcel.piece payload number).bytes.size)) ::
          steps)
        result

/-- What the reply after a payload makes of the download. -/
def confirmation : Except Error Reply → Except Error Unit
  | .ok (.okay _) => .ok ()
  | .ok (.data _) => .error (.protocol .dataAfterPayload)
  | .error error => .error error

/-- A payload is announced, and sent only if just as many bytes are invited. -/
inductive Downloading (payload : ByteArray) : List Event → Except Error Unit → Prop where
  | unanswered {steps error} :
      Asking (Protocol.downloadCommand payload.size) steps (.error error) →
      Downloading payload steps (.error error)
  | uninvited {steps text} :
      Asking (Protocol.downloadCommand payload.size) steps (.ok (.okay text)) →
      Downloading payload steps (.error (.protocol .expectedData))
  | mismatch {steps accepted} :
      Asking (Protocol.downloadCommand payload.size) steps (.ok (.data accepted)) →
      accepted ≠ payload.size →
      Downloading payload steps (.error (.protocol (.sizeMismatch payload.size accepted)))
  | broken {steps sending error} :
      Asking (Protocol.downloadCommand payload.size) steps (.ok (.data payload.size)) →
      Sending payload 0 sending (.error error) →
      Downloading payload (steps ++ .progress (.transferStarted payload.size) :: sending)
        (.error error)
  | sent {steps sending closing reply} :
      Asking (Protocol.downloadCommand payload.size) steps (.ok (.data payload.size)) →
      Sending payload 0 sending (.ok ()) → Hearing closing reply →
      Downloading payload
        (steps ++ .progress (.transferStarted payload.size) ::
          (sending ++ .progress .transferDone :: closing))
        (confirmation reply)

@[simp] theorem acts_append (earlier later : List Event) :
    acts (earlier ++ later) = acts earlier ++ acts later :=
  List.filter_append ..

@[simp] theorem acts_transferred (transfers : List Transfer) :
    acts (transfers.map .transferred) = [] := by
  simp [acts]

theorem exchanges_acts (events : List Event) :
    (acts events).filterMap Event.exchange? = events.filterMap Event.exchange? := by
  induction events with
  | nil => rfl
  | cons event events ih =>
      cases event with
      | written | read => exact congrArg (_ :: ·) ih
      | _ => exact ih

def Session.Shows {σ α : Type} (session : Session σ α)
    (course : List Event → Except Error α → Prop) : Prop :=
  ∀ device, course (acts (session device).1.events) (session device).1.result

namespace Session

variable {σ α β : Type}

theorem shows_write (transport : Transport σ) (data : ByteArray) :
    (write transport data).Shows fun steps result =>
      ∃ outcome, steps = [.written data outcome] ∧ result = outcome.mapError .transport := by
  intro device
  refine ⟨(transport.write data device).result, ?_, rfl⟩
  simp only [write, acts_append, acts_transferred]
  rfl

theorem Shows.bind {first : Session σ α} {next : α → Session σ β}
    {course : List Event → Except Error α → Prop} {whole : List Event → Except Error β → Prop}
    (head : first.Shows course)
    (failed : ∀ {steps error}, course steps (.error error) → whole steps (.error error))
    (went : ∀ {steps value}, course steps (.ok value) →
      (next value).Shows fun others result => whole (steps ++ others) result) :
    (first >>= next).Shows whole := by
  intro device
  have own := head device
  rcases ran : first device with ⟨⟨result, events⟩, after⟩
  rw [ran] at own
  cases result with
  | error error =>
      rw [bind_error ran]
      exact failed own
  | ok value =>
      rw [bind_ok ran, Outcome.after, acts_append]
      exact went own after

theorem Shows.after_report {progress : Progress} {next : Session σ β}
    {whole : List Event → Except Error β → Prop}
    (tail : next.Shows fun steps result => whole (.progress progress :: steps) result) :
    (report progress >>= fun _ => next).Shows whole := by
  intro device
  have ran : report progress device = (⟨.ok (), [.progress progress]⟩, device) := rfl
  rw [bind_ok ran]
  exact tail device

private theorem Shows.after_note {text : Note} {next : Session σ β}
    {whole : List Event → Except Error β → Prop} (tail : next.Shows whole) :
    (note text >>= fun _ => next).Shows whole := by
  intro device
  have ran : note text device = (⟨.ok (), [.noted text]⟩, device) := rfl
  rw [bind_ok ran]
  exact tail device

end Session

namespace Protocol

open Session

variable {σ : Type}

variable {transport : Transport σ} {buffer : ByteArray} {device next : σ} {events : List Event}
  {outcome : Except TransportFault ByteArray}

/-- A read shows nothing but its call. -/
theorem acts_of_read {result : Except Error (Nat × ByteArray)}
    (ran : Session.read transport buffer device = (⟨result, events⟩, next))
    (shown : events.filterMap Event.exchange? = [.read outcome]) :
    acts events = [.read outcome] := by
  have single : ∃ other, acts events = [.read other] := by
    simp only [Session.read, Prod.mk.injEq, Outcome.mk.injEq] at ran
    obtain ⟨⟨-, rfl⟩, -⟩ := ran
    rw [acts_append, acts_transferred]
    exact ⟨_, rfl⟩
  obtain ⟨other, alone⟩ := single
  have same : [Exchange.read other] = [.read outcome] := by
    rw [← shown, ← exchanges_acts, alone]
    rfl
  cases same
  exact alone

theorem acts_of_noted {value : Nat × ByteArray}
    (ran : Session.read transport buffer device = (⟨.ok value, events⟩, next)) (note : Note) :
    acts (events ++ [.noted note]) = [.read (.ok (value.2.extract 0 value.1))] := by
  rw [acts_append, acts_of_read ran (read_received ran)]
  rfl

private theorem shows_readReplyInto (transport : Transport σ) (buffer : ByteArray) :
    (readReplyInto transport buffer).Shows Hearing := by
  intro device
  apply readReplyInto_induction fun _ _ run => Hearing (acts run.1.events) run.1.result
  case unread =>
    intro buffer device error events next failed
    obtain ⟨fault, rfl, shown⟩ := read_failed failed
    rw [acts_of_read failed shown]
    exact .last (.misread (.unread fault))
  case undecodable =>
    intro buffer device size filled events next fault received parsed
    rw [acts_of_read received (read_received received)]
    exact .last (.misread (.undecodable parsed))
  case refused =>
    intro buffer device size filled events next reason received parsed
    rw [acts_of_noted received]
    exact .last (.misread (.refused parsed))
  case replied =>
    intro buffer device size filled events next reply received parsed
    rw [acts_of_noted received]
    exact .last (.reply reply parsed)
  case informed =>
    intro buffer device size filled events next text rest last received parsed heard
    rw [Outcome.after, acts_append, acts_append, acts_of_noted received]
    exact .info parsed heard

theorem shows_readReply (transport : Transport σ) : (readReply transport).Shows Hearing :=
  shows_readReplyInto transport packetBuffer

theorem shows_sendCommand (transport : Transport σ) {line : String}
    (short : line.utf8ByteSize ≤ 64) : (sendCommand transport line).Shows (Asking line) := by
  have allowed : ¬ maxCommandSize < line.utf8ByteSize := Nat.not_lt.mpr short
  rw [sendCommand, if_neg allowed]
  refine .after_note ?_
  refine (shows_write transport _).bind ?_ ?_
  · rintro steps error ⟨outcome, rfl, same⟩
    cases outcome with
    | error fault =>
        cases same
        exact .unwritten
    | ok count => cases same
  · rintro steps count ⟨outcome, rfl, same⟩
    cases outcome with
    | error fault => cases same
    | ok written =>
        cases same
        by_cases whole : count = line.utf8ByteSize
        · rw [if_neg (not_not.mpr whole), whole]
          intro device
          exact .whole (shows_readReply transport device)
        · rw [if_pos whole]
          intro device
          exact .cutShort whole

/-- From the piece with a number on, when all before it were sent. -/
theorem shows_sendPieces (transport : Transport σ) (payload : ByteArray) {first left : Nat}
    (rest : first + left = Parcel.count payload) {sent : Nat}
    (reached : left ≠ 0 → sent = first * 2 ^ 20) :
    (sendPieces transport payload.size sent
      (((List.range' first left).map (.piece payload)).map Parcel.bytes)).Shows
        (Sending payload first) := by
  induction left generalizing first sent with
  | zero => exact fun _ => .done (by omega)
  | succ left ih =>
      -- All pieces before this one are of full length, since it comes after them.
      have start : sent = first * 2 ^ 20 := reached (by simp)
      have more : first < Parcel.count payload := by omega
      rw [List.range'_succ, List.map_cons, List.map_cons, sendPieces]
      refine (shows_write transport _).bind ?_ ?_
      · rintro steps error ⟨outcome, rfl, same⟩
        cases outcome with
        | error fault =>
            cases same
            exact .unwritten more
        | ok count => cases same
      · rintro steps count ⟨outcome, rfl, same⟩
        cases outcome with
        | error fault => cases same
        | ok written =>
            cases same
            by_cases whole : count = (Parcel.piece payload first).bytes.size
            · rw [if_neg (not_not.mpr whole), whole, start]
              refine .after_report fun device => ?_
              refine .piece more (ih (by omega) (fun more => ?_) device)
              rw [Parcel.size_piece (by omega), Nat.succ_mul]
            · rw [if_pos whole, start]
              intro device
              exact .cutShort more whole

theorem shows_download (transport : Transport σ) {payload : ByteArray}
    (small : payload.size < 2 ^ 32) : (download transport payload).Shows (Downloading payload) := by
  have short : (downloadCommand payload.size).utf8ByteSize ≤ 64 := by simp
  have allowed : ¬ Response.sizeLimit ≤ payload.size := Nat.not_le.mpr small
  rw [download, if_neg allowed]
  refine (shows_sendCommand transport short).bind .unanswered ?_
  intro steps reply asked
  cases reply with
  | okay text =>
      intro device
      rw [← List.append_nil steps] at asked
      exact .uninvited asked
  | data accepted =>
      dsimp only
      by_cases invited : accepted = payload.size
      · subst invited
        rw [if_neg (not_not.mpr rfl)]
        refine .after_report ?_
        rw [← Parcel.map_bytes_pieces, Parcel.pieces, List.range_eq_range']
        refine (shows_sendPieces transport payload (Nat.zero_add _) (by simp)).bind ?_ ?_
        · intro sending error ended
          exact .broken asked ended
        · intro sending _ ended
          refine .after_report ?_
          refine (shows_readReply transport).bind ?_ ?_
          · intro closing error heard
            exact .sent asked ended heard
          · intro closing reply heard device
            cases reply with
            | okay text =>
                rw [← List.append_nil closing] at heard
                exact .sent asked ended heard
            | data size =>
                rw [← List.append_nil closing] at heard
                exact .sent asked ended heard
      · rw [if_pos invited]
        intro device
        rw [← List.append_nil steps] at asked
        exact .mismatch asked invited

end Protocol

/-! ## Calls in the course of a command -/

private theorem firstFinal_append (earlier later : List Exchange) :
    firstFinal (earlier ++ later) = (firstFinal earlier).or (firstFinal later) := by
  rw [firstFinal, received_append, List.find?_append]
  rfl

private theorem firstFinal_read {outcome : Except TransportFault ByteArray} (final : heard outcome ≠ .info)
    (exchanges : List Exchange) : firstFinal (.read outcome :: exchanges) = some outcome := by
  rw [firstFinal, received_read]
  exact List.find?_cons_of_pos (by simpa using final)

private theorem firstFinal_info {outcome : Except TransportFault ByteArray} (silent : heard outcome = .info)
    (exchanges : List Exchange) :
    firstFinal (.read outcome :: exchanges) = firstFinal exchanges := by
  rw [firstFinal, received_read]
  exact List.find?_cons_of_neg (by simpa using silent)

variable {steps : List Event} {result : Except Error Reply} {line : String}
  {outcome : Except TransportFault ByteArray}

theorem Settles.heard_ne (settles : Settles outcome result) : heard outcome ≠ .info := by
  cases settles with
  | reply reply parsed =>
      rw [Reply.heard_eq parsed]
      exact nofun
  | misread misread =>
      rw [misread.heard_eq]
      exact nofun

/-- A packet with a reply in it settles on this reply. -/
theorem Settles.eq_of_parse {packet : ByteArray} {reply : Reply}
    (settles : Settles (.ok packet) result) (parsed : Response.parse packet = .ok reply.response) :
    result = .ok reply := by
  cases settles with
  | reply other content =>
      have same : other.response = reply.response := Except.ok.inj (content.symm.trans parsed)
      cases other <;> cases reply <;> cases same <;> rfl
  | misread misread =>
      have broken := misread.heard_eq
      rw [Reply.heard_eq parsed] at broken
      cases broken

theorem Hearing.settles (hearing : Hearing steps result) :
    ∃ outcome, firstFinal (steps.filterMap Event.exchange?) = some outcome ∧
      Settles outcome result := by
  induction hearing with
  | @last outcome result settles => exact ⟨outcome, firstFinal_read settles.heard_ne [], settles⟩
  | @info packet text steps result parsed _ ih =>
      have silent : heard (.ok packet) = .info := by simp [heard, parsed]
      obtain ⟨outcome, first, settles⟩ := ih
      exact ⟨outcome, (firstFinal_info silent _).trans first, settles⟩

theorem Hearing.written_eq (hearing : Hearing steps result) :
    written (steps.filterMap Event.exchange?) = [] := by
  induction hearing with
  | last => rfl
  | info _ _ ih => exact ih

theorem Asking.written_eq (asking : Asking line steps result) :
    written (steps.filterMap Event.exchange?) = [line.toUTF8] := by
  cases asking with
  | unwritten => rfl
  | cutShort => rfl
  | whole hearing => exact congrArg (_ :: ·) hearing.written_eq

theorem Asking.settles (asking : Asking line steps result)
    (first : firstFinal (steps.filterMap Event.exchange?) = some outcome) :
    Settles outcome result := by
  cases asking with
  | unwritten => cases first
  | cutShort => cases first
  | whole hearing =>
      obtain ⟨other, only, settles⟩ := hearing.settles
      cases only.symm.trans first
      exact settles

private theorem Asking.first_of_ok {reply : Reply} (asking : Asking line steps (.ok reply)) :
    ∃ outcome, firstFinal (steps.filterMap Event.exchange?) = some outcome := by
  cases asking with
  | whole hearing =>
      obtain ⟨outcome, first, -⟩ := hearing.settles
      exact ⟨outcome, first⟩

/-- The reply to a command is settled by its first final packet, whatever happens later. -/
theorem Asking.reply_eq {reply came : Reply} {packet : ByteArray} {later : List Event}
    (asking : Asking line steps (.ok came))
    (first : firstFinal ((steps ++ later).filterMap Event.exchange?) = some (.ok packet))
    (parsed : Response.parse packet = .ok reply.response) : came = reply := by
  obtain ⟨outcome, own⟩ := asking.first_of_ok
  rw [List.filterMap_append, firstFinal_append, own, Option.some_or] at first
  cases first
  exact Except.ok.inj ((asking.settles own).eq_of_parse parsed)

end FlashHost
