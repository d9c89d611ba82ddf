import FlashHost.Fault
import FlashHost.Text.Blank
import FlashHost.Text.Numeral
import FlashHost.Text.Quoted
import FlashHost.Text.Utf8

/-!
# Response packets

A device answers with packets: a status of four bytes, then text. Three statuses
carry the text as it is; `DATA` carries the size of the payload that the device
will take, as a hexadecimal numeral below `2 ^ 32`.
-/

set_option autoImplicit false

namespace FlashHost

inductive Response where
  | okay (text : String)
  | fail (text : String)
  /-- The device waits for a payload of this size. -/
  | data (size : Nat)
  /-- Information for the user; more packets follow. -/
  | info (text : String)
deriving DecidableEq, Repr

namespace Response

-- One fixed instance, whatever other instances are imported.
local instance decidableStatus : DecidableEq ByteArray := ByteArray.instDecidableEq

def statusSize : Nat := 4

def sizeLimit : Nat := 0x100000000

/-- The size that the text of a `DATA` packet announces: blanks at both ends do not
count, and one plus sign may stand before the digits. -/
def size? (text : List Char) : Option Nat :=
  let digits :=
    match Text.trim text with
    | '+' :: digits => digits
    | digits => digits
  (Numeral.value? 16 digits).filter (· < sizeLimit)

def parse (packet : ByteArray) : Except ProtocolFault Response :=
  if packet.size < statusSize then .error (.shortResponse packet.size)
  else
    let status := packet.extract 0 statusSize
    let text := textOfBytes (packet.extract statusSize packet.size)
    if status = "OKAY".toUTF8 then .ok (.okay text)
    else if status = "FAIL".toUTF8 then .ok (.fail text)
    else if status = "INFO".toUTF8 then .ok (.info text)
    else if status = "DATA".toUTF8 then
      match size? text.toList with
      | some size => .ok (.data size)
      | none => .error (.invalidDataSize text)
    else .error (.unknownStatus (textOfBytes status))

def summary : Response → String
  | .okay text => "Okay(" ++ quote text ++ ")"
  | .fail text => "Fail(" ++ quote text ++ ")"
  | .data size => "Data(" ++ toString size ++ ")"
  | .info text => "Info(" ++ quote text ++ ")"

end Response

end FlashHost
