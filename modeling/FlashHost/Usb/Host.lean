import FlashHost.Device.Descriptor
import FlashHost.Fault
import FlashHost.Note

/-!
# USB devices as the host sees them

What a listing of the bus says of a device, and how the device answers when it is
opened, configured, claimed and asked to transfer.
-/

set_option autoImplicit false

namespace FlashHost.Usb

inductive TransferKind where
  | control
  | isochronous
  | bulk
  | interrupt
deriving DecidableEq, Repr

structure Endpoint where
  address : UInt8
  kind : TransferKind
deriving DecidableEq, Repr

def Endpoint.isIncoming (endpoint : Endpoint) : Bool :=
  endpoint.address &&& 0x80 != 0

structure AlternateSetting where
  interface : UInt8
  endpoints : List Endpoint
deriving DecidableEq, Repr

inductive ConfigurationFault where
  | notConfigured
  | noDescriptor (configuration : Nat)
deriving DecidableEq, Repr

def ConfigurationFault.message : ConfigurationFault → String
  | .notConfigured => "device is not configured"
  | .noDescriptor configuration =>
    "no descriptor found for active configuration " ++ toString configuration

/-- An interface of a device, and the host's words when it cannot be claimed. -/
structure Interface where
  number : UInt8
  kind : InterfaceKind
  claimFault : Option String
deriving DecidableEq, Repr

inductive OutgoingAnswer where
  | all
  /-- So many bytes are taken, or all if there are fewer. -/
  | leading (count : Nat)
  | fault (fault : TransferFault)
deriving DecidableEq, Repr

inductive IncomingAnswer where
  | packet (data : ByteArray)
  | fault (fault : TransferFault)

structure Device where
  location : UsbAddress
  serial : Option String
  /-- The host's words when the device cannot be opened. -/
  openFault : Option String
  interfaces : List Interface
  /-- The alternate settings of the active configuration. -/
  configuration : Except ConfigurationFault (List AlternateSetting)
  /-- What becomes of its outgoing transfers; all bytes are taken once these are used up. -/
  outgoing : List OutgoingAnswer
  /-- What becomes of its incoming transfers; it is gone once these are used up. -/
  incoming : List IncomingAnswer

/-- The serial number of a device, empty if it reports none. -/
def Device.serialText (device : Device) : String :=
  device.serial.getD ""

/-- A listing of the bus, or the host's words when there is none. -/
abbrev Listing := Except String (List Device)

end FlashHost.Usb
