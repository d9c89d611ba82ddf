import FlashHost.Protocol.Transport
import FlashHost.Usb.Host

/-!
# Connections

A claimed interface with its bulk pair. Writes become bulk transfers of limited
length, up to the first one that is not taken whole; each read is one transfer.
-/

set_option autoImplicit false

namespace FlashHost.Usb

def maxTransferSize : Nat := 1024 * 1024

/-- The first bulk endpoint of each direction, in the order of the descriptors. -/
def bulkPair? (endpoints : List Endpoint) : Option EndpointPair := do
  let bulk := endpoints.filter (·.kind = .bulk)
  let incoming ← bulk.find? (·.isIncoming)
  let outgoing ← bulk.find? (!·.isIncoming)
  return ⟨incoming.address, outgoing.address⟩

/-- The bulk pair of an interface. Only its first alternate setting counts. -/
def findBulkPair (settings : List AlternateSetting) (interface : UInt8) :
    Except UsbFault EndpointPair :=
  let setting? := settings.find? (·.interface = interface)
  match setting?.bind fun setting => bulkPair? setting.endpoints with
  | some pair => .ok pair
  | none => .error (.noEndpoints interface)

/-- A claimed interface, and the answers that its device has left. -/
structure Connection where
  serial : String
  endpoints : EndpointPair
  outgoing : List OutgoingAnswer
  incoming : List IncomingAnswer

namespace Connection

def outgoingResult (size : Nat) : OutgoingAnswer → Except TransferFault Nat
  | .all => .ok size
  | .leading count => .ok (min count size)
  | .fault fault => .error fault

def submit (connection : Connection) (data : ByteArray) :
    Except TransferFault Nat × Connection :=
  match connection.outgoing with
  | [] => (.ok data.size, connection)
  | answer :: outgoing => (outgoingResult data.size answer, { connection with outgoing })

def transportFault (fault : TransferFault) : TransportFault :=
  .usb (.transferFailed fault.message)

/-- Write pieces after `written` bytes, up to the first that is not taken whole. -/
def writePieces : (written : Nat) → List ByteArray → Connection → Call Connection Nat
  | written, [], connection => ⟨.ok written, [], connection⟩
  | written, piece :: pieces, connection =>
    let (outcome, connection) := connection.submit piece
    let transfer := Transfer.outgoing connection.endpoints.outgoing piece outcome
    match outcome with
    | .error fault => ⟨.error (transportFault fault), [transfer], connection⟩
    | .ok taken =>
      if taken ≠ piece.size then ⟨.ok (written + taken), [transfer], connection⟩
      else
        let rest := writePieces (written + taken) pieces connection
        { rest with transfers := transfer :: rest.transfers }

def write (data : ByteArray) (connection : Connection) : Call Connection Nat :=
  writePieces 0 (pieces maxTransferSize data) connection

/-- Read a packet into a buffer. No more than the buffer can hold is asked for. -/
def read (buffer : ByteArray) (connection : Connection) : Call Connection (Nat × ByteArray) :=
  let transfer := Transfer.incoming connection.endpoints.incoming buffer.size
  match connection.incoming with
  | [] => ⟨.error (transportFault .disconnected), [transfer (.error .disconnected)], connection⟩
  | .fault fault :: incoming =>
    ⟨.error (transportFault fault), [transfer (.error fault)], { connection with incoming }⟩
  | .packet data :: incoming =>
    let packet := data.extract 0 buffer.size
    ⟨.ok (receive packet buffer), [transfer (.ok packet)], { connection with incoming }⟩

def transport : Transport Connection where
  write := write
  read := read
  pending connection := connection.incoming.length
  pending_read buffer connection received := by
    unfold read at received ⊢
    split at received <;> simp_all [Except.isOk, Except.toBool]

end Connection

end FlashHost.Usb
