import FlashHost.Protocol.Reply

/-!
# Reading a reply

The reading of a reply by what its first call gives: a failure, which is passed on, or a
packet, which is the reply or information before it.
-/

set_option autoImplicit false

namespace FlashHost

def Reply.response : Reply → Response
  | .okay text => .okay text
  | .data size => .data size

namespace Protocol

variable {σ : Type} {transport : Transport σ} {device next : σ} {buffer filled : ByteArray}
  {size : Nat} {error : Error} {events : List Event}

/-- What becomes of a packet that was read, with the buffer that goes on to the next one. -/
def replyOf (transport : Transport σ) (packet buffer : ByteArray) (events : List Event)
    (device : σ) : Outcome Reply × σ :=
  match Response.parse packet with
  | .error fault => (⟨.error (.protocol fault), events⟩, device)
  | .ok response =>
    let events := events ++ [.noted (.received response)]
    match response with
    | .okay text => (⟨.ok (.okay text), events⟩, device)
    | .data size => (⟨.ok (.data size), events⟩, device)
    | .fail reason => (⟨.error (.remote none reason), events⟩, device)
    | .info text =>
      let (outcome, last) := readReplyInto transport buffer device
      (outcome.after (events ++ [.progress (.info text)]), last)

theorem readReplyInto_of_error
    (failed : Session.read transport buffer device = (⟨.error error, events⟩, next)) :
    readReplyInto transport buffer device = (⟨.error error, events⟩, next) := by
  rw [readReplyInto]
  split
  case h_1 received =>
    cases failed.symm.trans received
    rfl
  case h_2 received => cases failed.symm.trans received

theorem readReplyInto_of_read
    (read : Session.read transport buffer device = (⟨.ok (size, filled), events⟩, next)) :
    readReplyInto transport buffer device =
      replyOf transport (filled.extract 0 size) filled events next := by
  rw [readReplyInto]
  split
  case h_1 received => cases read.symm.trans received
  case h_2 received =>
    cases read.symm.trans received
    rfl

/-- Induction on the packets that are read. Information is read past, with the buffer as it was
left; everything else ends the reading. -/
theorem readReplyInto_induction (holds : ByteArray → σ → Outcome Reply × σ → Prop)
    (unread : ∀ {buffer device error events next},
      Session.read transport buffer device = (⟨.error error, events⟩, next) →
      holds buffer device (⟨.error error, events⟩, next))
    (undecodable : ∀ {buffer device size filled events next fault},
      Session.read transport buffer device = (⟨.ok (size, filled), events⟩, next) →
      Response.parse (filled.extract 0 size) = .error fault →
      holds buffer device (⟨.error (.protocol fault), events⟩, next))
    (refused : ∀ {buffer device size filled events next reason},
      Session.read transport buffer device = (⟨.ok (size, filled), events⟩, next) →
      Response.parse (filled.extract 0 size) = .ok (.fail reason) →
      holds buffer device
        (⟨.error (.remote none reason), events ++ [.noted (.received (.fail reason))]⟩, next))
    (replied : ∀ {buffer device size filled events next} (reply : Reply),
      Session.read transport buffer device = (⟨.ok (size, filled), events⟩, next) →
      Response.parse (filled.extract 0 size) = .ok reply.response →
      holds buffer device (⟨.ok reply, events ++ [.noted (.received reply.response)]⟩, next))
    (informed : ∀ {buffer device size filled events next text rest last},
      Session.read transport buffer device = (⟨.ok (size, filled), events⟩, next) →
      Response.parse (filled.extract 0 size) = .ok (.info text) →
      holds filled next (rest, last) →
      holds buffer device
        (rest.after (events ++ [.noted (.received (.info text))] ++ [.progress (.info text)]),
          last))
    (buffer : ByteArray) (device : σ) :
    holds buffer device (readReplyInto transport buffer device) := by
  -- Every packet uses up the bound on those to come.
  induction measure : transport.pending device using Nat.strongRecOn
    generalizing buffer device with
  | ind bound ih =>
      rcases ran : Session.read transport buffer device with ⟨⟨result, events⟩, next⟩
      cases result with
      | error error =>
          rw [readReplyInto_of_error ran]
          exact unread ran
      | ok received =>
          obtain ⟨size, filled⟩ := received
          have fewer : transport.pending next < bound := measure ▸ Session.pending_lt_of_read ran
          rw [readReplyInto_of_read ran, replyOf]
          cases parsed : Response.parse (filled.extract 0 size) with
          | error fault => exact undecodable ran parsed
          | ok response =>
              cases response with
              | okay text => exact replied (.okay text) ran parsed
              | data count => exact replied (.data count) ran parsed
              | fail reason => exact refused ran parsed
              | info text => exact informed ran parsed (ih _ fewer filled next rfl)

end Protocol

end FlashHost
