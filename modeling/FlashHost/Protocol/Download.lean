import FlashHost.Protocol.Reply
import FlashHost.Text.Numeral

/-!
# Payloads

A payload is announced by its size, and sent only if the device invites exactly that
many bytes. It is then written in pieces, and the device confirms the whole of it.
-/

set_option autoImplicit false

namespace FlashHost.Protocol

variable {σ : Type}

def pieceSize : Nat := 1024 * 1024

def downloadCommand (size : Nat) : String :=
  "download:" ++ Numeral.hex 8 size

/-- Write the pieces of a payload of `total` bytes, of which `sent` have been sent. Payloads
are smaller than `2 ^ 32`, so `sent + written` would leave a 64-bit word only if a transport
reported almost `2 ^ 64` bytes for a piece of `2 ^ 20`. -/
def sendPieces (transport : Transport σ) (total : Nat) :
    (sent : Nat) → List ByteArray → Session σ Unit
  | _, [] => return ()
  | sent, piece :: pieces => do
    let written ← Session.write transport piece
    if written ≠ piece.size then
      Session.fail (.transport (.payloadCutShort (sent + written) total))
    else
      Session.report (.transferProgress (sent + written))
      sendPieces transport total (sent + written) pieces

def download (transport : Transport σ) (payload : ByteArray) : Session σ Unit := do
  let size := payload.size
  if Response.sizeLimit ≤ size then Session.fail (.payloadTooLarge size)
  else
    match ← sendCommand transport (downloadCommand size) with
    | .okay _ => Session.fail (.protocol .expectedData)
    | .data accepted =>
      if accepted ≠ size then Session.fail (.protocol (.sizeMismatch size accepted))
      else
        Session.report (.transferStarted size)
        sendPieces transport size 0 (pieces pieceSize payload)
        Session.report .transferDone
        match ← readReply transport with
        | .okay _ => return ()
        | .data _ => Session.fail (.protocol .dataAfterPayload)

end FlashHost.Protocol
