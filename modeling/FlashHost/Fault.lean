/-!
# Faults

What can go wrong at each boundary of the program, as causes rather than texts.
`message` gives the words in which a fault is reported; the words that frame a
fault in a report of the whole invocation belong to `Error`.
-/

set_option autoImplicit false

namespace FlashHost

inductive FileFault where
  | missing
  | isDirectory
  | notDirectory
  | nameTooLong
  | nulByte
  /-- A fault that the system reports in words of its own. -/
  | system (text : String)
deriving DecidableEq, Repr

def FileFault.message : FileFault → String
  | .missing => "No such file or directory (os error 2)"
  | .isDirectory => "Is a directory (os error 21)"
  | .notDirectory => "Not a directory (os error 20)"
  | .nameTooLong => "File name too long (os error 36)"
  | .nulByte => "file name contained an unexpected NUL byte"
  | .system text => text

inductive MemberFault where
  /-- The archive gives no member or no more of its content, for a reason in words of its own. -/
  | unreadable (reason : String)
  /-- The member holds at least `capacity` bytes, more than it declares. -/
  | tooLong (capacity size : Nat)
  | wrongLength (size actual : Nat)
  | noMemory (size : Nat)
deriving DecidableEq, Repr

def MemberFault.message : MemberFault → String
  | .unreadable reason => reason
  | .tooLong capacity size =>
    "entry inflates past " ++ toString capacity ++ " bytes, declared size is " ++ toString size
  | .wrongLength size actual =>
    "expected " ++ toString size ++ " bytes, got " ++ toString actual
  | .noMemory size => "failed to allocate " ++ toString size ++ " bytes"

inductive ProtocolFault where
  | shortResponse (size : Nat)
  | unknownStatus (status : String)
  | invalidDataSize (text : String)
  /-- A payload was invited where the command takes none. -/
  | unexpectedData (command : String)
  | sizeMismatch (sent accepted : Nat)
  | expectedData
  | dataAfterPayload
deriving DecidableEq, Repr

def ProtocolFault.message : ProtocolFault → String
  | .shortResponse size => "short response (" ++ toString size ++ " bytes)"
  | .unknownStatus status => "unknown status code '" ++ status ++ "'"
  | .invalidDataSize text => "invalid data size '" ++ text ++ "'"
  | .unexpectedData command => "unexpected DATA response to '" ++ command ++ "'"
  | .sizeMismatch sent accepted =>
    "data size mismatch: sent " ++ toString sent ++ ", device accepted " ++ toString accepted
  | .expectedData => "expected DATA response to download"
  | .dataAfterPayload => "unexpected DATA response after download"

inductive TransferFault where
  | cancelled
  | stall
  | disconnected
  | hardware
  | unknown
deriving DecidableEq, Repr

def TransferFault.message : TransferFault → String
  | .cancelled => "transfer was cancelled"
  | .stall => "endpoint STALL condition"
  | .disconnected => "device disconnected"
  | .hardware => "hardware fault or protocol violation"
  | .unknown => "unknown error"

/-- What fails between the program and the host's USB stack. A `reason` is the
stack's own text. -/
inductive UsbFault where
  | enumerationFailed (reason : String)
  | claimFailed (interface : UInt8) (reason : String)
  | noEndpoints (interface : UInt8)
  | configurationUnavailable (reason : String)
  | transferFailed (reason : String)
deriving DecidableEq, Repr

def UsbFault.message : UsbFault → String
  | .enumerationFailed reason => "USB enumeration failed: " ++ reason
  | .claimFailed interface reason =>
    "Failed to claim interface " ++ toString interface.toNat ++ ": " ++ reason
  | .noEndpoints interface =>
    "Interface " ++ toString interface.toNat ++ " has no bulk endpoint pair"
  | .configurationUnavailable reason => "Failed to read active configuration: " ++ reason
  | .transferFailed reason => "USB transfer failed: " ++ reason

inductive TransportFault where
  | usb (fault : UsbFault)
  | commandCutShort (written size : Nat)
  | payloadCutShort (written size : Nat)
  /-- A fault that the layer below reports in words of its own. -/
  | other (text : String)
deriving DecidableEq, Repr

def TransportFault.message : TransportFault → String
  | .usb fault => fault.message
  | .commandCutShort written size =>
    "command write failed (" ++ toString written ++ " of " ++ toString size ++ " bytes)"
  | .payloadCutShort written size =>
    "data transfer failed (" ++ toString written ++ " of " ++ toString size ++ " bytes)"
  | .other text => text

end FlashHost
