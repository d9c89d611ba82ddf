import FlashHost.Program
import FlashHost.Proofs.Discovery.Concurrence
import FlashHost.Proofs.Usb.Enumeration

/-!
# Listing of USB devices

What is done on the bus to list the devices on it: one pass, in which every interface is looked
at and none is claimed.
-/

set_option autoImplicit false

namespace FlashHost.Usb

def glance (place : Place) : List Event :=
  (if place.interface.kind = .bootloader then [.openAttempted place.position] else []) ++
    [.visited place.candidate .pass]

private theorem deeds_collecting (filter : Filter) (found : List Descriptor) (places : List Place) :
    deeds (visitPlaces (Discovery.collecting filter) found places).events =
      places.flatMap glance := by
  induction places generalizing found with
  | nil => rfl
  | cons place places ih =>
      have passed : Discovery.collecting filter place.candidate found = (.pass, [], _) := rfl
      obtain ⟨events, done, stepped⟩ := visitPlaces_cons places passed
      rw [stepped, List.flatMap_cons, ← ih]
      exact (deeds_append _ _).trans (congrArg (· ++ _) done)

theorem list_ok (filter : Filter) (devices : List Device) :
    ∃ events, Discovery.list bus filter (.ok devices) =
        ⟨.ok (((places devices).map Place.candidate).filter filter.accepts), events⟩ ∧
      deeds events = .enumerated :: (places devices).flatMap glance := by
  have listed : offers (.ok devices) = .ok _ := rfl
  obtain ⟨result, -, unopened⟩ := Discovery.list_of_offers offers_bus listed filter
  rw [Discovery.matching, List.filter_map, List.map_map, Discovery.list, unopened] at result
  have looked : bus.enumerate (Discovery.collecting filter) [] (.ok devices) = _ :=
    enumerate_ok (Discovery.collecting filter) [] devices
  refine ⟨(bus.enumerate (Discovery.collecting filter) [] (.ok devices)).events, ?_, ?_⟩
  · rw [Discovery.list, unopened, List.filter_map]
    exact congrArg (Outcome.mk · _) result
  · rw [looked]
    exact congrArg (Event.enumerated :: ·) (deeds_collecting filter [] (places devices))

end FlashHost.Usb
