import FlashHost.Fault

/-!
# Errors of an invocation

Every error ends the invocation. `Error.kind` sorts errors by who has to act on
them, and `Error.message` is the text that the user reads.
-/

set_option autoImplicit false

namespace FlashHost

inductive Error.Kind where
  | usage
  | argument
  | file
  | invalidArchive
  | missingMember
  | package
  | member
  | remote
  | protocol
  | transport
deriving DecidableEq, Repr

inductive Error where
  | noCommand
  | unknownCommand (word : String)
  | missingArguments (word : String) (count : Nat)
  | invalidVendorId (text : String)
  | signatureSize (required : Nat)
  | commandTooLarge (command : String)
  | payloadTooLarge (size : Nat)
  | cannotLoad (path : String) (fault : FileFault)
  | invalidArchive (reason : String)
  | missingMember (name : String)
  | packageUnreadable (path reason : String)
  | packageIncomplete (name : String)
  | undecodable (name : String) (fault : MemberFault)
  /-- The device answered FAIL with a reason, in the named step if there is one. -/
  | remote (step : Option String) (reason : String)
  | protocol (fault : ProtocolFault)
  | transport (fault : TransportFault)
deriving DecidableEq, Repr

namespace Error

def kind : Error → Kind
  | .noCommand | .unknownCommand _ | .missingArguments _ _ => .usage
  | .invalidVendorId _ | .signatureSize _ | .commandTooLarge _ | .payloadTooLarge _ => .argument
  | .cannotLoad _ _ => .file
  | .invalidArchive _ => .invalidArchive
  | .missingMember _ => .missingMember
  | .packageUnreadable _ _ | .packageIncomplete _ => .package
  | .undecodable _ _ => .member
  | .remote _ _ => .remote
  | .protocol _ => .protocol
  | .transport _ => .transport

def remoteText (reason : String) : String :=
  "remote: " ++ reason

def stepText (step text : String) : String :=
  step ++ " failed (" ++ text ++ ")"

def archiveText (reason : String) : String :=
  "not a valid archive: " ++ reason

def message : Error → String
  | .noCommand => "no command given"
  | .unknownCommand word => "unknown command '" ++ word ++ "'"
  | .missingArguments word count =>
    "'" ++ word ++ "' requires " ++ toString count ++ " argument" ++ (if count = 1 then "" else "s")
  | .invalidVendorId text => "invalid vendor id '" ++ text ++ "'"
  | .signatureSize required => "signature must be " ++ toString required ++ " bytes"
  | .commandTooLarge command => "command too large: '" ++ command ++ "'"
  | .payloadTooLarge size => "payload too large (" ++ toString size ++ " bytes)"
  | .cannotLoad path fault => "cannot load '" ++ path ++ "': " ++ fault.message
  | .invalidArchive reason => archiveText reason
  | .missingMember name => "archive does not contain '" ++ name ++ "'"
  | .packageUnreadable path reason =>
    "failed to access zipdata in '" ++ path ++ "': " ++ archiveText reason
  | .packageIncomplete name => "package missing " ++ name
  | .undecodable name fault => "failed to unzip '" ++ name ++ "' from archive: " ++ fault.message
  | .remote none reason => remoteText reason
  | .remote (some step) reason => stepText step (remoteText reason)
  | .protocol fault => "protocol error: " ++ fault.message
  | .transport fault => "usb error: " ++ fault.message

/-- A refusal by the device names the step it ends; every other error stays as it is. -/
def inStep (step : String) : Error → Error
  | .remote none reason => .remote (some step) reason
  | error => error

end Error

end FlashHost
