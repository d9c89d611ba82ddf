import FlashHost.Device.Filter

/-!
# The devices that a filter accepts

What the tests of a filter say of the vendor, the interface and the serial number of a device.
-/

set_option autoImplicit false

namespace FlashHost

private theorem isKnownVendor_iff {id : UInt16} :
    isKnownVendor id ↔ ∃ name, (id, name) ∈ knownVendors := by
  rw [isKnownVendor, List.any_eq_true]
  constructor
  · intro found
    obtain ⟨⟨known, name⟩, member, same⟩ := found
    obtain rfl : known = id := beq_iff_eq.mp same
    exact ⟨name, member⟩
  · intro known
    obtain ⟨name, member⟩ := known
    exact ⟨(id, name), member, beq_self_eq_true id⟩

namespace Filter

private theorem requests_iff {filter : Filter} {id : UInt16} :
    filter.requests id ↔ filter.vendorId = some id ∧ id ≠ 0 := by
  rw [requests]
  cases filter.vendorId with
  | none => simp
  | some requested =>
      simp only [Bool.and_eq_true, bne_iff_ne, beq_iff_eq, Option.some_inj]
      constructor
      · intro asked
        exact ⟨asked.2, asked.2 ▸ asked.1⟩
      · intro asked
        exact ⟨asked.1 ▸ asked.2, asked.1⟩

theorem accepts_iff {filter : Filter} {device : Descriptor} :
    filter.accepts device ↔
      device.kind = .bootloader ∧
      ((∃ name, (device.vendorId, name) ∈ knownVendors) ∨
        filter.vendorId = some device.vendorId ∧ device.vendorId ≠ 0) ∧
      ∀ serial, filter.serial = some serial → device.serial = serial := by
  rw [accepts, Bool.and_eq_true, Bool.and_eq_true, Bool.or_eq_true, requests_iff,
    isKnownVendor_iff, beq_iff_eq, or_comm, and_assoc, and_left_comm]
  cases filter.serial <;> simp

end Filter

end FlashHost
