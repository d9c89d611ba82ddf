import FlashHost.Usb.Connection

/-!
# Bulk endpoints

Which endpoints an interface is talked to through: those of its first alternate setting, and
of these the first bulk endpoint in each direction. There is no pair if that setting lacks a
direction, whatever its other settings have.
-/

set_option autoImplicit false

namespace FlashHost.Usb

def FirstBulk (incoming : Bool) (endpoints : List Endpoint) (address : UInt8) : Prop :=
  ∃ before endpoint after, endpoints = before ++ endpoint :: after ∧
    endpoint.kind = .bulk ∧ endpoint.isIncoming = incoming ∧ endpoint.address = address ∧
    ∀ other ∈ before, other.kind = .bulk → other.isIncoming ≠ incoming

/-- The bulk pair that alternate settings give an interface. Only the first of its settings
counts. -/
def Pairs (settings : List AlternateSetting) (interface : UInt8) (pair : EndpointPair) : Prop :=
  ∃ before setting after, settings = before ++ setting :: after ∧
    setting.interface = interface ∧ (∀ other ∈ before, other.interface ≠ interface) ∧
    FirstBulk true setting.endpoints pair.incoming ∧
    FirstBulk false setting.endpoints pair.outgoing

def LacksBulk (incoming : Bool) (endpoints : List Endpoint) : Prop :=
  ∀ endpoint ∈ endpoints, endpoint.kind = .bulk → endpoint.isIncoming ≠ incoming

inductive Unpaired (settings : List AlternateSetting) (interface : UInt8) : Prop where
  | absent : (∀ setting ∈ settings, setting.interface ≠ interface) → Unpaired settings interface
  | lacking {before setting after incoming} :
      settings = before ++ setting :: after → setting.interface = interface →
      (∀ other ∈ before, other.interface ≠ interface) → LacksBulk incoming setting.endpoints →
      Unpaired settings interface

theorem firstBulk_iff {incoming : Bool} {endpoints : List Endpoint} {address : UInt8} :
    FirstBulk incoming endpoints address ↔
      ∃ endpoint, (endpoints.filter (·.kind = .bulk)).find? (·.isIncoming == incoming) =
        some endpoint ∧ endpoint.address = address := by
  simp only [List.find?_filter, List.find?_eq_some_iff_append]
  constructor
  · intro chosen
    obtain ⟨before, endpoint, after, parts, bulk, direction, same, first⟩ := chosen
    refine ⟨endpoint, ⟨by simp [bulk, direction], before, after, parts, ?_⟩, same⟩
    intro other member
    simpa [Decidable.imp_iff_not_or] using first other member
  · intro found
    obtain ⟨endpoint, ⟨fits, before, after, parts, first⟩, same⟩ := found
    obtain ⟨bulk, direction⟩ : endpoint.kind = .bulk ∧ endpoint.isIncoming = incoming := by
      simpa using fits
    refine ⟨before, endpoint, after, parts, bulk, direction, same, ?_⟩
    intro other member
    simpa [Decidable.imp_iff_not_or] using first other member

theorem bulkPair?_eq_some_iff {endpoints : List Endpoint} {pair : EndpointPair} :
    bulkPair? endpoints = some pair ↔
      FirstBulk true endpoints pair.incoming ∧ FirstBulk false endpoints pair.outgoing := by
  rcases pair with ⟨input, output⟩
  simp only [firstBulk_iff, beq_true, beq_false, bulkPair?, Option.bind_eq_bind,
    Option.bind_eq_some_iff, Option.pure_def, Option.some_inj, EndpointPair.mk.injEq]
  constructor
  · intro paired
    obtain ⟨first, incoming, second, outgoing, rfl, rfl⟩ := paired
    exact ⟨⟨first, incoming, rfl⟩, second, outgoing, rfl⟩
  · intro both
    obtain ⟨⟨first, incoming, rfl⟩, second, outgoing, rfl⟩ := both
    exact ⟨first, incoming, second, outgoing, rfl, rfl⟩

theorem find?_interface_eq_some_iff {settings : List AlternateSetting} {interface : UInt8}
    {setting : AlternateSetting} :
    settings.find? (·.interface = interface) = some setting ↔
      ∃ before after, settings = before ++ setting :: after ∧ setting.interface = interface ∧
        ∀ other ∈ before, other.interface ≠ interface := by
  rw [List.find?_eq_some_iff_append]
  constructor
  · intro found
    obtain ⟨own, before, after, parts, others⟩ := found
    exact ⟨before, after, parts, by simpa using own, by simpa using others⟩
  · intro found
    obtain ⟨before, after, parts, own, others⟩ := found
    exact ⟨by simpa using own, before, after, parts, by simpa using others⟩

/-- The search for a bulk pair succeeds with the pair of the interface, if there is one. -/
theorem findBulkPair_eq_ok_iff {settings : List AlternateSetting} {interface : UInt8}
    {pair : EndpointPair} :
    findBulkPair settings interface = .ok pair ↔ Pairs settings interface pair := by
  have found : findBulkPair settings interface = .ok pair ↔
      ∃ setting, settings.find? (·.interface = interface) = some setting ∧
        bulkPair? setting.endpoints = some pair := by
    rw [← Option.bind_eq_some_iff, findBulkPair]
    split
    case h_1 here => simp [here]
    case h_2 missing => simp [missing]
  rw [found]
  constructor
  · intro paired
    obtain ⟨setting, first, paired⟩ := paired
    obtain ⟨before, after, parts, own, others⟩ := find?_interface_eq_some_iff.mp first
    exact ⟨before, setting, after, parts, own, others, bulkPair?_eq_some_iff.mp paired⟩
  · intro paired
    obtain ⟨before, setting, after, parts, own, others, paired⟩ := paired
    have first := find?_interface_eq_some_iff.mpr ⟨before, after, parts, own, others⟩
    exact ⟨setting, first, bulkPair?_eq_some_iff.mpr paired⟩

theorem firstBulk_or_lacks (incoming : Bool) (endpoints : List Endpoint) :
    (∃ address, FirstBulk incoming endpoints address) ∨ LacksBulk incoming endpoints := by
  cases found : (endpoints.filter (·.kind = .bulk)).find? (·.isIncoming == incoming) with
  | some endpoint => exact .inl ⟨endpoint.address, firstBulk_iff.mpr ⟨endpoint, found, rfl⟩⟩
  | none =>
      refine .inr ?_
      intro endpoint member bulk
      have listed : endpoint ∈ endpoints.filter (·.kind = .bulk) := by simp [member, bulk]
      simpa using List.find?_eq_none.mp found endpoint listed

theorem LacksBulk.not_firstBulk {incoming : Bool} {endpoints : List Endpoint}
    (lacks : LacksBulk incoming endpoints) (address : UInt8) :
    ¬ FirstBulk incoming endpoints address := by
  intro first
  obtain ⟨before, endpoint, after, rfl, bulk, direction, -, -⟩ := first
  exact lacks endpoint (by simp) bulk direction

private theorem bulkPair?_eq_none_iff {endpoints : List Endpoint} :
    bulkPair? endpoints = none ↔ ∃ incoming, LacksBulk incoming endpoints := by
  constructor
  · intro missing
    obtain ⟨input, first⟩ | lacks := firstBulk_or_lacks true endpoints
    · obtain ⟨output, second⟩ | lacks := firstBulk_or_lacks false endpoints
      · have paired : bulkPair? endpoints = some ⟨input, output⟩ :=
          bulkPair?_eq_some_iff.mpr ⟨first, second⟩
        simp [missing] at paired
      · exact ⟨false, lacks⟩
    · exact ⟨true, lacks⟩
  · intro missing
    obtain ⟨incoming, lacks⟩ := missing
    cases found : bulkPair? endpoints with
    | none => rfl
    | some pair =>
        obtain ⟨first, second⟩ := bulkPair?_eq_some_iff.mp found
        cases incoming with
        | true => exact absurd first (lacks.not_firstBulk pair.incoming)
        | false => exact absurd second (lacks.not_firstBulk pair.outgoing)

private theorem findBulkPair_eq_error_iff {settings : List AlternateSetting} {interface : UInt8}
    {fault : UsbFault} :
    findBulkPair settings interface = .error fault ↔
      fault = .noEndpoints interface ∧ Unpaired settings interface := by
  rw [findBulkPair]
  cases first : settings.find? (·.interface = interface) with
  | none =>
      have absent : ∀ setting ∈ settings, setting.interface ≠ interface := by
        simpa using List.find?_eq_none.mp first
      simp [Unpaired.absent absent, eq_comm]
  | some setting =>
      obtain ⟨before, after, parts, own, others⟩ := find?_interface_eq_some_iff.mp first
      have unpaired :
          Unpaired settings interface ↔ ∃ incoming, LacksBulk incoming setting.endpoints := by
        constructor
        · intro unpaired
          cases unpaired with
          | absent absent => exact absurd own (absent setting (by simp [parts]))
          | lacking split same before lacks =>
              -- The first setting of the interface is one and the same.
              have again := find?_interface_eq_some_iff.mpr ⟨_, _, split, same, before⟩
              rw [first] at again
              cases again
              exact ⟨_, lacks⟩
        · intro lacking
          obtain ⟨incoming, lacks⟩ := lacking
          exact .lacking parts own others lacks
      rw [unpaired, ← bulkPair?_eq_none_iff, Option.bind_some]
      cases bulkPair? setting.endpoints <;> simp [eq_comm]

/-- The second setting of the interface has what the first one lacks. -/
example :
    findBulkPair
      [⟨1, [⟨0x81, .bulk⟩, ⟨0x01, .bulk⟩]⟩, ⟨0, [⟨0x01, .interrupt⟩, ⟨0x82, .bulk⟩]⟩,
        ⟨0, [⟨0x82, .bulk⟩, ⟨0x02, .bulk⟩]⟩] 0 = .error (.noEndpoints 0) :=
  rfl

private theorem findBulkPair_first {before : List AlternateSetting} {setting : AlternateSetting}
    {interface : UInt8} (own : setting.interface = interface)
    (others : ∀ other ∈ before, other.interface ≠ interface) (after : List AlternateSetting) :
    findBulkPair (before ++ setting :: after) interface = findBulkPair [setting] interface := by
  have first := find?_interface_eq_some_iff.mpr ⟨before, after, rfl, own, others⟩
  have alone := find?_interface_eq_some_iff.mpr ⟨[], [], rfl, own, by simp⟩
  rw [findBulkPair, findBulkPair, first, ← alone]
  rfl

private theorem isIncoming_iff {endpoint : Endpoint} :
    endpoint.isIncoming ↔ 128 ≤ endpoint.address.toNat := by
  have each : ∀ address < 256,
      (UInt8.ofNat address &&& 0x80 != 0) = decide (128 ≤ address) := by decide +kernel
  have own := each endpoint.address.toNat endpoint.address.toNat_lt
  rw [UInt8.ofNat_toNat] at own
  rw [Endpoint.isIncoming, own, decide_eq_true_iff]

/-- The first alternate setting of an interface alone decides on its bulk pair. The pair is that
of the first bulk endpoint in either direction; if one is missing there is no pair, even if
another setting has one. -/
theorem findBulkPair_decided (settings : List AlternateSetting) (interface : UInt8) :
    (∀ pair, findBulkPair settings interface = .ok pair ↔ Pairs settings interface pair) ∧
    (∀ fault, findBulkPair settings interface = .error fault ↔
      fault = .noEndpoints interface ∧ Unpaired settings interface) ∧
    (∀ before setting after, settings = before ++ setting :: after →
      setting.interface = interface → (∀ other ∈ before, other.interface ≠ interface) →
      findBulkPair settings interface = findBulkPair [setting] interface) ∧
    ∀ endpoint : Endpoint, endpoint.isIncoming ↔ 128 ≤ endpoint.address.toNat := by
  refine ⟨fun _ => findBulkPair_eq_ok_iff, fun _ => findBulkPair_eq_error_iff, ?_,
    fun _ => isIncoming_iff⟩
  intro before setting after parts own others
  rw [parts]
  exact findBulkPair_first own others after

end FlashHost.Usb
