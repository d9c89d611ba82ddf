import FlashHost.Device.Filter
import FlashHost.Error
import FlashHost.Operation
import FlashHost.Protocol.Response
import FlashHost.Text.Numeral

/-!
# Log notes

A note records one thing that an activity did. Its level says how much it matters
and its text is the log line; notes never influence what happens next.
-/

set_option autoImplicit false

namespace FlashHost

/-- How much a log line matters, the gravest first. -/
inductive Level where
  | error
  | warn
  | info
  | debug
  | trace
deriving DecidableEq, Repr

namespace Level

def name : Level → String
  | .error => "ERROR"
  | .warn => "WARN"
  | .info => "INFO"
  | .debug => "DEBUG"
  | .trace => "TRACE"

def rank : Level → Nat
  | .error => 0
  | .warn => 1
  | .info => 2
  | .debug => 3
  | .trace => 4

def within (line level : Level) : Bool :=
  line.rank ≤ level.rank

end Level

structure UsbAddress where
  vendorId : UInt16
  productId : UInt16
  bus : Nat
  address : Nat
deriving DecidableEq, Repr

structure EndpointPair where
  incoming : UInt8
  outgoing : UInt8
deriving DecidableEq, Repr

inductive Note where
  | fileLoaded (size : Nat) (path : String)
  | archiveOpened (members : Nat)
  | memberExtracted (name : String) (storedSize size : Nat)
  | packagePlanned (path : String) (members : Nat)
  | queued (operation : Operation)
  | vendorCommandMissing
  | lineRead (operations : Nat) (filter : Filter)
  | executing (operations payloadSize : Nat)
  | sent (command : String)
  | received (response : Response)
  | accepting (device : Descriptor)
  | enumerationFailed (fault : TransportFault)
  | devicesFound (count : Nat)
  | cannotOpen (device : UsbAddress) (reason : String)
  | notPermitted (serial : String)
  | skipped (serial : String) (fault : UsbFault)
  | opened (device : UsbAddress) (interface : UInt8) (endpoints : EndpointPair)
  | transferredOut (size : Nat)
  | transferredIn (size : Nat)
deriving DecidableEq

namespace Note

def level : Note → Level
  | .vendorCommandMissing | .enumerationFailed _ | .notPermitted _ | .skipped _ _ => .warn
  | .packagePlanned _ _ | .opened _ _ _ => .info
  | .fileLoaded _ _ | .archiveOpened _ | .memberExtracted _ _ _ | .lineRead _ _
  | .executing _ _ | .accepting _ | .devicesFound _ | .cannotOpen _ _ => .debug
  | .queued _ | .sent _ | .received _ | .transferredOut _ | .transferredIn _ => .trace

def text : Note → String
  | .fileLoaded size path => "Loaded " ++ toString size ++ " bytes from " ++ path
  | .archiveOpened members => "Opened archive with " ++ toString members ++ " entries"
  | .memberExtracted name storedSize size =>
    "Extracted '" ++ name ++ "' (" ++ toString storedSize ++ " -> " ++ toString size ++ " bytes)"
  | .packagePlanned path members =>
    "Planning package " ++ path ++ " (" ++ toString members ++ " entries)"
  | .queued operation => "Queued " ++ operation.summary
  | .vendorCommandMissing => "'oem' given without a command, ignoring"
  | .lineRead operations filter =>
    "Queued " ++ toString operations ++ " operation(s), filter " ++ filter.summary
  | .executing operations payloadSize =>
    "Executing " ++ toString operations ++ " operations (" ++ toString payloadSize ++
      " payload bytes)"
  | .sent command => "-> " ++ command
  | .received response => "<- " ++ response.summary
  | .accepting device =>
    "Accepting device " ++ Numeral.hex 4 device.vendorId.toNat ++ " serial '" ++
      device.serial ++ "'"
  | .enumerationFailed fault => "USB enumeration failed: " ++ (Error.transport fault).message
  | .devicesFound count => "Found " ++ toString count ++ " fastboot device(s)"
  | .cannotOpen device reason =>
    "Cannot open " ++ Numeral.hex 4 device.vendorId.toNat ++ ":" ++
      Numeral.hex 4 device.productId.toNat ++ " at bus " ++ toString device.bus ++
      " address " ++ toString device.address ++ ": " ++ reason
  | .notPermitted serial =>
    "Fastboot device '" ++ serial ++ "' found but cannot be opened (no permissions?)"
  | .skipped serial fault => "Skipping device '" ++ serial ++ "': " ++ fault.message
  | .opened device interface endpoints =>
    "Opened fastboot device at bus " ++ toString device.bus ++ " address " ++
      toString device.address ++ " (interface " ++ toString interface.toNat ++ ", in 0x" ++
      Numeral.hex 2 endpoints.incoming.toNat ++ ", out 0x" ++
      Numeral.hex 2 endpoints.outgoing.toNat ++ ")"
  | .transferredOut size => "USB write " ++ toString size ++ " bytes"
  | .transferredIn size => "USB read " ++ toString size ++ " bytes"

def line (note : Note) : String :=
  note.level.name ++ " " ++ note.text

end Note

end FlashHost
