import FlashHost.Discovery
import FlashHost.Usb.Connection

/-!
# The USB bus

A pass over the USB bus visits every interface of every listed device. Bootloader
interfaces, and no others, are opened first, which shows whether the user may use
them. An accepted interface that cannot be used is passed over.
-/

set_option autoImplicit false

namespace FlashHost.Usb

/-- Open the device at a position for an interface, if that is a bootloader's: whether it
could be opened, and the events of it. -/
def openFor (position : Nat) (device : Device) (interface : Interface) : Bool × List Event :=
  if interface.kind = .bootloader then
    match device.openFault with
    | none => (true, [.openAttempted position])
    | some reason =>
      (false, [.openAttempted position, .noted (.cannotOpen device.location reason)])
  else (false, [])

def descriptor (device : Device) (interface : Interface) (writable : Bool) : Descriptor :=
  { vendorId := device.location.vendorId
    kind := interface.kind
    serial := device.serialText
    writable }

def claim (position : Nat) (device : Device) (interface : Interface) :
    Except UsbFault Connection × List Event :=
  let configured := .configurationRead position
  match device.configuration with
  | .error fault => (.error (.configurationUnavailable fault.message), [configured])
  | .ok settings =>
    match findBulkPair settings interface.number with
    | .error fault => (.error fault, [configured])
    | .ok endpoints =>
      let claimed := .claimAttempted position interface.number
      match interface.claimFault with
      | some reason =>
        (.error (.claimFailed interface.number reason), [configured, claimed])
      | none =>
        (.ok ⟨device.serialText, endpoints, device.outgoing, device.incoming⟩,
          [configured, claimed, .noted (.opened device.location interface.number endpoints)])

def useAccepted (position : Nat) (device : Device) (interface : Interface) (opened : Bool) :
    Option Connection × List Event :=
  if !opened then (none, [.noted (.notPermitted device.serialText)])
  else
    match claim position device interface with
    | (.ok connection, events) => (some connection, events)
    | (.error fault, events) =>
      (none, events ++ [.noted (.skipped device.serialText fault)])

structure Place where
  position : Nat
  device : Device
  interface : Interface

def placesFrom : (position : Nat) → List Device → List Place
  | _, [] => []
  | position, device :: devices =>
    device.interfaces.map (⟨position, device, ·⟩) ++ placesFrom (position + 1) devices

def visitPlaces {κ : Type} (visit : Visitor κ) :
    κ → List Place → Enumeration κ Connection
  | state, [] => ⟨.ok none, state, []⟩
  | state, ⟨position, device, interface⟩ :: places =>
    let (opened, openEvents) := openFor position device interface
    let candidate := descriptor device interface opened
    let (verdict, notes, state) := visit candidate state
    let visitEvents := openEvents ++ notes.map .noted ++ [.visited candidate verdict]
    let (connection?, useEvents) :=
      match verdict with
      | .pass => (none, [])
      | .accept => useAccepted position device interface opened
    match connection? with
    | some connection => ⟨.ok (some connection), state, visitEvents ++ useEvents⟩
    | none =>
      let rest := visitPlaces visit state places
      { rest with events := visitEvents ++ useEvents ++ rest.events }

def enumerate {κ : Type} (visit : Visitor κ) (state : κ) (listing : Listing) :
    Enumeration κ Connection :=
  match listing with
  | .error reason => ⟨.error (.usb (.enumerationFailed reason)), state, [.enumerated]⟩
  | .ok devices =>
    let visited := visitPlaces visit state (placesFrom 0 devices)
    { visited with events := .enumerated :: visited.events }

def bus : Bus Listing Connection where
  enumerate := enumerate

end FlashHost.Usb
