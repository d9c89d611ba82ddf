import FlashHost.Device.Descriptor
import FlashHost.Text.Quoted

/-!
# Device filters

A device is eligible when its vendor is known or asked for, its interface is a
bootloader's, and its serial number is the required one if there is one.
-/

set_option autoImplicit false

namespace FlashHost

def knownVendors : List (UInt16 × String) :=
  [(0x18D1, "Google"), (0x0451, "Texas Instruments"), (0x0502, "Acer"),
   (0x0FCE, "Sony Ericsson"), (0x05C6, "Qualcomm"), (0x22B8, "Motorola"),
   (0x0955, "Nvidia"), (0x413C, "Dell"), (0x8087, "Intel"), (0x0BB4, "HTC")]

def isKnownVendor (vendorId : UInt16) : Bool :=
  knownVendors.any fun (id, _) => id == vendorId

structure Filter where
  /-- A vendor accepted beside the known ones; zero accepts none. -/
  vendorId : Option UInt16 := none
  serial : Option String := none
deriving DecidableEq, Repr

namespace Filter

def any : Filter := ⟨none, none⟩

/-- Whether the filter itself asks for a vendor. -/
def requests (filter : Filter) (vendorId : UInt16) : Bool :=
  match filter.vendorId with
  | some requested => requested != 0 && requested == vendorId
  | none => false

def accepts (filter : Filter) (device : Descriptor) : Bool :=
  (filter.requests device.vendorId || isKnownVendor device.vendorId) &&
    device.kind == .bootloader &&
    match filter.serial with
    | some serial => device.serial == serial
    | none => true

private def optional (text : Option String) : String :=
  match text with
  | some text => "Some(" ++ text ++ ")"
  | none => "None"

def summary (filter : Filter) : String :=
  let vendorId := filter.vendorId.map fun id => toString id.toNat
  let serial := filter.serial.map quote
  "MatchFilter \x7b vendor_id: " ++ optional vendorId ++ ", serial: " ++ optional serial ++ " \x7d"

end Filter

end FlashHost
