import FlashHost.Proofs.Device.Script
import FlashHost.Proofs.Progress.Bracketing
import FlashHost.Proofs.Usb.Conveyance

/-!
# Replies over a connection

All packets of a reply are read into one buffer. What a packet leaves behind in it shows
nowhere: a reply comes out as if each packet were decoded by itself, and no packet is ever
looked for beyond the end of the buffer.
-/

set_option autoImplicit false

namespace FlashHost.Usb

open Protocol (readReply readReplyInto)

/-- What comes of the wait for a reply: the information before it, the reply, and the answers
that the device has left. -/
structure Decoded where
  information : List String
  result : Except Error Reply
  left : List IncomingAnswer

/-- The reply among the answers of a device when each packet is decoded by itself. -/
def decodeEach : List IncomingAnswer → Decoded
  | [] => ⟨[], .error (.transport (Connection.transportFault .disconnected)), []⟩
  | .fault fault :: answers => ⟨[], .error (.transport (Connection.transportFault fault)), answers⟩
  | .packet data :: answers =>
    match Response.parse (data.extract 0 64) with
    | .error fault => ⟨[], .error (.protocol fault), answers⟩
    | .ok (.okay text) => ⟨[], .ok (.okay text), answers⟩
    | .ok (.data size) => ⟨[], .ok (.data size), answers⟩
    | .ok (.fail reason) => ⟨[], .error (.remote none reason), answers⟩
    | .ok (.info text) =>
      let later := decodeEach answers
      { later with information := text :: later.information }

def Decodes (connection : Connection) (run : Outcome Reply × Connection) : Prop :=
  let decoded := decodeEach connection.incoming
  run.1.result = decoded.result ∧ reports run.1.events = decoded.information.map .info ∧
    run.2 = { connection with incoming := decoded.left }

/-- The wait for a reply comes to read a packet into this buffer, from the device as it is
then. All packets before were information. -/
inductive Reads (connection : Connection) : ByteArray → Connection → Prop where
  | first : Reads connection Protocol.packetBuffer connection
  | next {buffer filled device later size events text} :
      Reads connection buffer device →
      Session.read Connection.transport buffer device = (⟨.ok (size, filled), events⟩, later) →
      Response.parse (filled.extract 0 size) = .ok (.info text) →
      Reads connection filled later

private theorem fits_receive (packet buffer : ByteArray) : (receive packet buffer).1 ≤ buffer.size :=
  Nat.min_le_right ..

/-- A packet is no longer than the buffer that it is read into, and leaves it as large. -/
theorem Connection.fits_read {buffer filled : ByteArray} {connection : Connection} {size : Nat}
    (received : (Connection.read buffer connection).result = .ok (size, filled)) :
    size ≤ buffer.size ∧ filled.size = buffer.size := by
  rcases connection with ⟨serial, endpoints, outgoing, incoming⟩
  match incoming with
  | [] => cases received
  | .fault fault :: answers => cases received
  | .packet data :: answers =>
      cases received
      exact ⟨fits_receive _ buffer, size_receive _ buffer⟩

/-- A packet is taken as it comes, cut to 64 bytes, whatever was in the buffer. -/
theorem read_packet {buffer : ByteArray} (sized : buffer.size = 64) (serial : String)
    (endpoints : EndpointPair) (outgoing : List OutgoingAnswer) (data : ByteArray)
    (answers : List IncomingAnswer) :
    ∃ size filled events,
      Session.read Connection.transport buffer
          ⟨serial, endpoints, outgoing, .packet data :: answers⟩ =
        (⟨.ok (size, filled), events⟩, ⟨serial, endpoints, outgoing, answers⟩) ∧
      filled.size = 64 ∧ filled.extract 0 size = data.extract 0 64 := by
  have cut := extract_receive (data.extract 0 buffer.size) buffer
  have kept := size_receive (data.extract 0 buffer.size) buffer
  have same : (data.extract 0 64).extract 0 64 = data.extract 0 64 := by
    rw [ByteArray.extract_extract]
    simp
  have read : ∃ events, Session.read Connection.transport buffer
      ⟨serial, endpoints, outgoing, .packet data :: answers⟩ =
        (⟨.ok (receive (data.extract 0 buffer.size) buffer), events⟩,
          ⟨serial, endpoints, outgoing, answers⟩) := ⟨_, rfl⟩
  obtain ⟨events, read⟩ := read
  generalize receive (data.extract 0 buffer.size) buffer = received at cut kept read
  rw [sized] at cut kept
  exact ⟨received.1, received.2, events, read, kept, cut.trans same⟩

theorem decodes_readReplyInto {buffer : ByteArray} (sized : buffer.size = 64)
    (connection : Connection) :
    Decodes connection (readReplyInto Connection.transport buffer connection) := by
  rcases connection with ⟨serial, endpoints, outgoing, incoming⟩
  -- The buffer may hold anything when a packet comes; only its size is kept.
  induction incoming generalizing buffer with
  | nil =>
      rw [Protocol.readReplyInto_of_error rfl]
      exact ⟨rfl, rfl, rfl⟩
  | cons answer answers ih =>
      cases answer with
      | fault fault =>
          rw [Protocol.readReplyInto_of_error rfl]
          exact ⟨rfl, rfl, rfl⟩
      | packet data =>
          obtain ⟨size, filled, events, read, kept, packet⟩ :=
            read_packet sized serial endpoints outgoing data answers
          have silent (note : Note) := Protocol.received_silent read note
          rw [Protocol.readReplyInto_of_read read, Protocol.replyOf, packet]
          cases parsed : Response.parse (data.extract 0 64) with
          | error fault =>
              simp only [Decodes, decodeEach, parsed]
              exact ⟨trivial, Protocol.read_silent read, trivial⟩
          | ok response =>
              cases response with
              | okay text =>
                  simp only [Decodes, decodeEach, parsed]
                  exact ⟨trivial, silent _, trivial⟩
              | data size =>
                  simp only [Decodes, decodeEach, parsed]
                  exact ⟨trivial, silent _, trivial⟩
              | fail reason =>
                  simp only [Decodes, decodeEach, parsed]
                  exact ⟨trivial, silent _, trivial⟩
              | info text =>
                  obtain ⟨result, told, left⟩ := ih kept
                  simp only [Decodes, decodeEach, parsed]
                  refine ⟨result, ?_, left⟩
                  have passed : reports (events ++ [.noted (.received (.info text))] ++
                      [.progress (.info text)]) = [.info text] := by
                    rw [reports_append, silent]
                    rfl
                  change reports (_ ++ _) = _
                  rw [reports_append, passed, told]
                  rfl

theorem Reads.sized {connection device : Connection} {buffer : ByteArray}
    (reads : Reads connection buffer device) : buffer.size = 64 := by
  induction reads with
  | first => exact Array.size_replicate
  | next _ read _ ih => exact (size_of_read read).trans ih

/-- The wait goes on from each of its packets to the end of the whole. -/
theorem Reads.resumes {connection device : Connection} {buffer : ByteArray}
    (reads : Reads connection buffer device) :
    ∃ events, readReply Connection.transport connection =
      ((readReplyInto Connection.transport buffer device).1.after events,
        (readReplyInto Connection.transport buffer device).2) := by
  induction reads with
  | first => exact ⟨[], rfl⟩
  | @next buffer filled device later size events text _ read parsed ih =>
      obtain ⟨before, whole⟩ := ih
      refine ⟨before ++ (events ++ [.noted (.received (.info text))] ++ [.progress (.info text)]),
        ?_⟩
      rw [whole, Protocol.readReplyInto_of_read read, Protocol.replyOf, parsed]
      simp only [Outcome.after, List.append_assoc]

structure Ready (connection : Connection) (buffer : ByteArray) (device : Connection) : Prop where
  resumes : ∃ events, readReply Connection.transport connection =
    ((readReplyInto Connection.transport buffer device).1.after events,
      (readReplyInto Connection.transport buffer device).2)
  sized : buffer.size = 64
  /-- The packet is looked for within the buffer. -/
  bounded : ∀ size filled, (Connection.read buffer device).result = .ok (size, filled) →
    size ≤ 64 ∧ filled.size = 64
  /-- Nothing in the buffer so far matters. -/
  decodes : Decodes device (readReplyInto Connection.transport buffer device)

/-- That all packets of a reply are read into one buffer does not show: the reply and the
information before it are those of the packets, each decoded by itself. -/
theorem decodes_readReply (connection : Connection) :
    Decodes connection (readReply Connection.transport connection) ∧
    (∀ buffer device, Reads connection buffer device → Ready connection buffer device) ∧
    ∀ reason, (Error.remote none reason).kind = .remote ∧
      (Error.remote none reason).message = "remote: " ++ reason := by
  refine ⟨decodes_readReplyInto Array.size_replicate connection, ?_, fun _ => ⟨rfl, rfl⟩⟩
  intro buffer device reads
  refine ⟨reads.resumes, reads.sized, ?_, decodes_readReplyInto reads.sized device⟩
  intro size filled received
  have fits := Connection.fits_read received
  rwa [reads.sized] at fits

/-- A short packet is read over the front of a longer one. -/
theorem decodes_short_after_long :
    let device : Connection := ⟨"", ⟨0x81, 1⟩, [], [.packet "OKAYdone".toUTF8]⟩
    let connection : Connection :=
      { device with incoming := .packet "INFOerasing the data".toUTF8 :: device.incoming }
    ∃ buffer, Reads connection buffer device ∧ Ready connection buffer device ∧
      (readReply Connection.transport connection).1.result = .ok (.okay "done") ∧
      reports (readReply Connection.transport connection).1.events =
        [.info "erasing the data"] := by
  intro device connection
  obtain ⟨size, filled, events, read, -, packet⟩ :=
    read_packet Array.size_replicate device.serial device.endpoints device.outgoing
      "INFOerasing the data".toUTF8 device.incoming
  have parsed : Response.parse (filled.extract 0 size) = .ok (.info "erasing the data") := by
    rw [packet]
    rfl
  have reads : Reads connection filled device := .next .first read parsed
  obtain ⟨⟨result, told, -⟩, ready, -⟩ := decodes_readReply connection
  exact ⟨filled, reads, ready filled device reads, result, told⟩

end FlashHost.Usb
