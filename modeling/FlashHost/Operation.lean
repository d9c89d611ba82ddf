import FlashHost.Text.Quoted

/-!
# Operations

One operation is one intended action against the device. Operations that carry a
payload own its bytes; no description of an operation shows them.
-/

set_option autoImplicit false

namespace FlashHost

-- One fixed instance, whatever other instances are imported.
local instance decidablePayload : DecidableEq ByteArray := ByteArray.instDecidableEq

inductive Operation where
  | flash (partition : String) (image : ByteArray)
  | erase (partition : String)
  | display (name label : String)
  /-- Show a message; the device is not involved. -/
  | notice (message : String)
  /-- Send a raw command, described by a message unless that is empty. -/
  | command (line message : String)
  | reboot
  | rebootBootloader
  /-- Send a payload that a later command will use. -/
  | download (tag : String) (payload : ByteArray)
deriving DecidableEq

namespace Operation

def payload? : Operation → Option ByteArray
  | .flash _ image => some image
  | .download _ payload => some payload
  | _ => none

def payloadSize (operation : Operation) : Nat :=
  match operation.payload? with
  | some payload => payload.size
  | none => 0

/-- A record with the given fields, each a name with a quoted text. -/
private def record (name : String) (fields : List (String × String)) : String :=
  let shown := fields.map fun (field, text) => field ++ ": " ++ quote text
  name ++ " \x7b " ++ ", ".intercalate shown ++ " \x7d"

/-- A one-line description for the log, with the size of a payload in its place. -/
def summary : Operation → String
  | .flash partition image =>
    "Flash(" ++ partition ++ ", " ++ toString image.size ++ " bytes)"
  | .erase partition => record "Erase" [("partition", partition)]
  | .display name label => record "Display" [("variable", name), ("label", label)]
  | .notice message => record "Notice" [("message", message)]
  | .command line message => record "Command" [("command", line), ("message", message)]
  | .reboot => "Reboot"
  | .rebootBootloader => "RebootBootloader"
  | .download tag payload =>
    "Download(" ++ tag ++ ", " ++ toString payload.size ++ " bytes)"

end Operation

end FlashHost
