import FlashHost.Proofs.Protocol.Invariant
import FlashHost.Proofs.Protocol.Reply
import FlashHost.Proofs.Protocol.Session
import Mathlib.Data.List.Forall2

/-!
# Sessions that go alike

Two runs are alike if they end in the same way and the same things happen in their course,
apart from the bytes of what goes out. On a device that does not go by these bytes, sessions
go alike whenever the payloads that they send have the same sizes.
-/

set_option autoImplicit false

namespace FlashHost

inductive Operation.Alike : Operation → Operation → Prop where
  | same (operation) : Alike operation operation
  | flash {partition image other} :
      image.size = other.size → Alike (.flash partition image) (.flash partition other)
  | download {tag payload other} :
      payload.size = other.size → Alike (.download tag payload) (.download tag other)

theorem Operation.Alike.payloadSize_eq {operation other : Operation}
    (same : operation.Alike other) : operation.payloadSize = other.payloadSize := by
  cases same with
  | same => rfl
  | flash size => exact size
  | download size => exact size

inductive Transfer.Alike : Transfer → Transfer → Prop where
  | same (transfer) : Alike transfer transfer
  | outgoing {endpoint data other outcome} :
      data.size = other.size →
      Alike (.outgoing endpoint data outcome) (.outgoing endpoint other outcome)

inductive Event.Alike : Event → Event → Prop where
  | same (event) : Alike event event
  | written {data other outcome} :
      data.size = other.size → Alike (.written data outcome) (.written other outcome)
  | transferred {transfer other} :
      transfer.Alike other → Alike (.transferred transfer) (.transferred other)
  | queued {operation other} :
      operation.Alike other → Alike (.noted (.queued operation)) (.noted (.queued other))

theorem Event.alike_refl (events : List Event) : List.Forall₂ Event.Alike events events :=
  List.forall₂_same.mpr fun event _ => .same event

theorem Event.alike_transferred {transfers others : List Transfer}
    (same : List.Forall₂ Transfer.Alike transfers others) :
    List.Forall₂ Event.Alike (transfers.map .transferred) (others.map .transferred) := by
  induction same with
  | nil => exact .nil
  | cons first _ ih => exact .cons (.transferred first) ih

/-- The transport answers alike whatever bytes it is given, and goes on to do so. What the
device keeps of the bytes does not matter as long as no answer depends on it. -/
structure Transport.Blind {σ : Type} (transport : Transport σ) (alike : σ → σ → Prop) : Prop where
  write : ∀ {first second : σ} {data other : ByteArray},
    alike first second → data.size = other.size →
    (transport.write data first).result = (transport.write other second).result ∧
      List.Forall₂ Transfer.Alike (transport.write data first).transfers
        (transport.write other second).transfers ∧
      alike (transport.write data first).device (transport.write other second).device
  read : ∀ {first second : σ} (buffer : ByteArray), alike first second →
    (transport.read buffer first).result = (transport.read buffer second).result ∧
      List.Forall₂ Transfer.Alike (transport.read buffer first).transfers
        (transport.read buffer second).transfers ∧
      alike (transport.read buffer first).device (transport.read buffer second).device

structure Outcome.Alike {σ α : Type} (alike : σ → σ → Prop) (first second : Outcome α × σ) :
    Prop where
  result : first.1.result = second.1.result
  events : List.Forall₂ Event.Alike first.1.events second.1.events
  device : alike first.2 second.2

def Session.Alike {σ α : Type} (alike : σ → σ → Prop) (session other : Session σ α) : Prop :=
  ∀ first second, alike first second → Outcome.Alike alike (session first) (other second)

theorem Outcome.Alike.after {σ α : Type} {alike : σ → σ → Prop} {first second : Outcome α × σ}
    {events others : List Event} (later : Outcome.Alike alike first second)
    (earlier : List.Forall₂ Event.Alike events others) :
    Outcome.Alike alike (first.1.after events, first.2) (second.1.after others, second.2) where
  result := later.result
  events := List.rel_append earlier later.events
  device := later.device

namespace Session

variable {σ α β : Type} {alike : σ → σ → Prop}

theorem alike_lift (outcome : Outcome α) : (lift outcome).Alike alike (lift outcome) :=
  fun _ _ same => ⟨rfl, Event.alike_refl _, same⟩

theorem Alike.bind {session other : Session σ α} {next afterwards : α → Session σ β}
    (head : session.Alike alike other)
    (tail : ∀ value, (next value).Alike alike (afterwards value)) :
    (session >>= next).Alike alike (other >>= afterwards) := by
  intro first second same
  have held := head first second same
  rcases ran : session first with ⟨⟨result, events⟩, left⟩
  rcases reran : other second with ⟨⟨again, told⟩, leftToo⟩
  rw [ran, reran] at held
  obtain ⟨ended, happened, kept⟩ := held
  obtain rfl : result = again := ended
  cases result with
  | error error =>
      rw [bind_error ran, bind_error reran]
      exact ⟨rfl, happened, kept⟩
  | ok value =>
      rw [bind_ok ran, bind_ok reran]
      exact (tail value left leftToo kept).after happened

theorem Alike.attempt {session other : Session σ α} (same : session.Alike alike other) :
    session.attempt.Alike alike other.attempt := by
  intro first second start
  obtain ⟨result, events, device⟩ := same first second start
  exact ⟨congrArg Except.ok result, events, device⟩

variable {transport : Transport σ} (blind : transport.Blind alike)

include blind

theorem alike_write {data other : ByteArray} (size : data.size = other.size) :
    (write transport data).Alike alike (write transport other) := by
  intro first second same
  obtain ⟨result, transfers, device⟩ := blind.write same size
  refine ⟨by simp only [write, result], ?_, device⟩
  simp only [write, result]
  exact List.rel_append (Event.alike_transferred transfers) (.cons (.written size) .nil)

private theorem alike_read (buffer : ByteArray) :
    (read transport buffer).Alike alike (read transport buffer) := by
  intro first second same
  obtain ⟨result, transfers, device⟩ := blind.read buffer same
  refine ⟨by simp only [read, result], ?_, device⟩
  simp only [read, result]
  exact List.rel_append (Event.alike_transferred transfers) (Event.alike_refl _)

end Session

namespace Protocol

open Session

theorem sizes_piecesFrom {length : Nat} {data other : ByteArray} (size : data.size = other.size)
    (offset : Nat) :
    List.Forall₂ (fun piece other => piece.size = other.size) (piecesFrom length data offset)
      (piecesFrom length other offset) := by
  fun_induction piecesFrom length data offset with
  | case1 offset more ih =>
      have next : piecesFrom length other offset = other.extract offset (offset + length) ::
          piecesFrom length other (offset + length) := by
        rw [piecesFrom, if_pos (size ▸ more)]
      rw [next]
      exact .cons (by simp [size]) ih
  | case2 offset none =>
      have ended : piecesFrom length other offset = [] := by
        rw [piecesFrom, if_neg (size ▸ none)]
      rw [ended]
      exact .nil

theorem payloadSize_eq {queue other : Queue}
    (same : List.Forall₂ Operation.Alike queue.toList other.toList) :
    queue.payloadSize = other.payloadSize := by
  unfold Queue.payloadSize
  generalize queue.toList = operations, other.toList = others at same
  induction same with
  | nil => rfl
  | cons first _ ih => rw [List.foldr_cons, List.foldr_cons, first.payloadSize_eq, ih]

variable {σ : Type} {alike : σ → σ → Prop} {transport : Transport σ}

private theorem alike_step {body other : Session σ Unit} (description : String)
    (same : body.Alike alike other) :
    (step description body).Alike alike (step description other) := by
  refine .bind (alike_lift (.emit _)) fun _ => .bind same.attempt ?_
  intro result
  cases result with
  | ok value => exact alike_lift (.emit _)
  | error error => exact .bind (alike_lift (.emit _)) fun _ => alike_lift (.fail _)

variable (blind : transport.Blind alike)

include blind

private theorem alike_readReplyInto (buffer : ByteArray) {first second : σ} (same : alike first second) :
    Outcome.Alike alike (readReplyInto transport buffer first)
      (readReplyInto transport buffer second) := by
  -- Every packet uses up the bound on those to come.
  induction measure : transport.pending first using Nat.strongRecOn
    generalizing buffer first second with
  | ind bound ih =>
      have held := alike_read blind buffer first second same
      rcases ran : Session.read transport buffer first with ⟨⟨result, events⟩, left⟩
      rcases reran : Session.read transport buffer second with ⟨⟨again, told⟩, leftToo⟩
      rw [ran, reran] at held
      obtain ⟨ended, happened, kept⟩ := held
      obtain rfl : result = again := ended
      cases result with
      | error error =>
          rw [readReplyInto_of_error ran, readReplyInto_of_error reran]
          exact ⟨rfl, happened, kept⟩
      | ok received =>
          obtain ⟨size, filled⟩ := received
          have fewer : transport.pending left < bound := measure ▸ pending_lt_of_read ran
          have noted (note : Note) : List.Forall₂ Event.Alike (events ++ [.noted note])
              (told ++ [.noted note]) := List.rel_append happened (Event.alike_refl _)
          rw [readReplyInto_of_read ran, readReplyInto_of_read reran, replyOf, replyOf]
          cases Response.parse (filled.extract 0 size) with
          | error fault => exact ⟨rfl, happened, kept⟩
          | ok response =>
              cases response with
              | info text =>
                  exact (ih _ fewer filled kept rfl).after
                    (List.rel_append (noted _) (Event.alike_refl _))
              | _ => exact ⟨rfl, noted _, kept⟩

/-- Two runs of one session go alike on devices that answer alike. -/
theorem alike_invariant : ExecutionInvariant transport fun _ session => session.Alike alike session
    where
  pure value := alike_lift (.pure value)
  fail error := alike_lift (.fail error)
  note text := alike_lift (.note text)
  transfer report _ := alike_lift (.emit (.progress report))
  write _ := alike_write blind rfl
  readReply _ _ := alike_readReplyInto blind packetBuffer
  bind := Alike.bind
  report report _ := alike_lift (.emit (.progress report))
  attempt := Alike.attempt

private theorem alike_sendPieces (total sent : Nat) {pieces others : List ByteArray}
    (sizes : List.Forall₂ (fun piece other => piece.size = other.size) pieces others) :
    (sendPieces transport total sent pieces).Alike alike
      (sendPieces transport total sent others) := by
  induction sizes generalizing sent with
  | nil => exact alike_lift (.pure ())
  | @cons piece other pieces others size _ ih =>
      rw [sendPieces, sendPieces]
      refine .bind (alike_write blind size) ?_
      intro count
      rw [← size]
      split
      · exact alike_lift (.fail _)
      · exact .bind (alike_lift (.emit _)) fun _ => ih _

private theorem alike_download {payload other : ByteArray} (size : payload.size = other.size) :
    (download transport payload).Alike alike (download transport other) := by
  simp only [download, ← size]
  split
  · exact alike_lift (.fail _)
  · refine .bind ((alike_invariant blind).sendCommand _) ?_
    intro reply
    cases reply with
    | okay text => exact alike_lift (.fail _)
    | data accepted =>
        dsimp only
        split
        · exact alike_lift (.fail _)
        · refine .bind (alike_lift (.emit _)) fun _ =>
            .bind (alike_sendPieces blind _ _ (sizes_piecesFrom size 0)) fun _ =>
              .bind (alike_lift (.emit _)) fun _ =>
                .bind (alike_invariant blind).readReply ?_
          intro confirmed
          cases confirmed with
          | okay text => exact alike_lift (.pure ())
          | data size => exact alike_lift (.fail _)

theorem alike_downloadStep (name : String) {payload other : ByteArray}
    (size : payload.size = other.size) :
    (downloadStep transport name payload).Alike alike (downloadStep transport name other) := by
  rw [downloadStep, downloadStep, ← size]
  exact alike_step _ (alike_download blind size)

private theorem alike_run {operation other : Operation} (same : operation.Alike other) :
    (run transport operation).Alike alike (run transport other) := by
  cases same with
  | same => exact (alike_invariant blind).run operation
  | flash size =>
      exact .bind (alike_downloadStep blind _ size) fun _ => (alike_invariant blind).commandStep _ _
  | download size => exact alike_downloadStep blind _ size

private theorem alike_runAll {operations others : List Operation}
    (same : List.Forall₂ Operation.Alike operations others) :
    (runAll transport operations).Alike alike (runAll transport others) := by
  induction same with
  | nil => exact alike_lift (.pure ())
  | cons first _ ih => exact .bind (alike_run blind first) fun _ => ih

theorem alike_execute {queue other : Queue}
    (same : List.Forall₂ Operation.Alike queue.toList other.toList) :
    (execute transport queue).Alike alike (execute transport other) := by
  have size : queue.size = other.size := same.length_eq
  rw [execute, execute, size, payloadSize_eq same]
  exact .bind (alike_lift (.note _)) fun _ =>
    .bind (alike_runAll blind same) fun _ => alike_lift (.emit _)

end Protocol

end FlashHost
