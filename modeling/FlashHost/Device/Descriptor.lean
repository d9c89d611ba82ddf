/-!
# Device descriptors

What the host reports about one candidate interface, and the interface class that
marks a bootloader.
-/

set_option autoImplicit false

namespace FlashHost

structure InterfaceKind where
  classCode : UInt8
  subclassCode : UInt8
  protocolCode : UInt8
deriving DecidableEq, Repr

/-- The vendor-specific interface that bootloaders offer. -/
def InterfaceKind.bootloader : InterfaceKind := ⟨0xFF, 0x42, 0x03⟩

/-- One candidate interface as the host reports it. -/
structure Descriptor where
  vendorId : UInt16
  kind : InterfaceKind
  /-- The serial number, empty when the device reports none. -/
  serial : String
  writable : Bool
deriving DecidableEq, Repr

def Descriptor.displaySerial (device : Descriptor) : String :=
  if !device.writable then "no permissions"
  else if device.serial.isEmpty then "????????????"
  else device.serial

end FlashHost
