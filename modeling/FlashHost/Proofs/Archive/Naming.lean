import FlashHost.Proofs.Archive.Taking
import Mathlib.Data.List.Nodup

/-!
# Members by name

A member is extracted by its name, and what that gives is decided by the member alone. Where an
archive finds its members by their names, neither their order nor what else there is makes a
difference.
-/

set_option autoImplicit false

namespace FlashHost.Archive

theorem result_open (reader : Reader) (data : ByteArray) :
    (Archive.open reader data).result = (reader data).mapError .invalidArchive := by
  rw [Archive.open]
  cases reader data <;> rfl

theorem open_eq_ok_iff {reader : Reader} {data : ByteArray} {archive : Archive} :
    (Archive.open reader data).result = .ok archive ↔ reader data = .ok archive := by
  rw [result_open, Result.mapError_eq_ok_iff]

def extracted (name : String) : Except String Member → Except Error ByteArray
  | .error reason => .error (.undecodable name (.unreadable reason))
  | .ok member =>
    if addressSpace < capacity member.size then
      .error (.undecodable name (.noMemory member.size))
    else (judge member.size (.ok member)).mapError (.undecodable name)

theorem result_extract (archive : Archive) (name : String) :
    (archive.extract name).result =
      match archive.find? name with
      | none => .error (.missingMember name)
      | some position => extracted name (archive.member position) := by
  rw [extract, lookup, Outcome.result_bind]
  cases archive.find? name with
  | none => rfl
  | some position =>
      dsimp only
      rw [Outcome.result_bind, result_memberOf]
      cases present : archive.member position with
      | error reason => rfl
      | ok member =>
          have entry := archive.result_decompress ⟨name, member.storedSize, member.size, position⟩
          rw [present] at entry
          exact entry

/-- An extraction fails for want of the member, or because its content cannot be decoded. -/
theorem extract_failed {archive : Archive} {name : String} {error : Error}
    (failed : (archive.extract name).result = .error error) :
    error = .missingMember name ∨ ∃ fault, error = .undecodable name fault := by
  rw [result_extract] at failed
  cases found : archive.find? name with
  | none =>
      rw [found] at failed
      cases failed
      exact .inl rfl
  | some position =>
      rw [found] at failed
      dsimp only at failed
      unfold extracted at failed
      split at failed
      · cases failed
        exact .inr ⟨_, rfl⟩
      · split at failed
        · cases failed
          exact .inr ⟨_, rfl⟩
        · obtain ⟨fault, -, rfl⟩ := Result.mapError_eq_error_iff.mp failed
          exact .inr ⟨fault, rfl⟩

/-- An archive has these members, each under its name. A member is found by exactly its name,
and what the archive gives at its place is this member. -/
structure Lists (archive : Archive) (members : List (String × Except String Member)) : Prop where
  found name position : archive.find? name = some position ↔
    ∃ member, members[position]? = some (name, member)
  given position name member :
    members[position]? = some (name, member) → archive.member position = member

namespace Lists

variable {archive another : Archive} {members others : List (String × Except String Member)}
  {name : String}

theorem extract_of_mem (lists : archive.Lists members) {member : Except String Member}
    (present : (name, member) ∈ members) :
    (archive.extract name).result = extracted name member := by
  obtain ⟨position, there⟩ := List.mem_iff_getElem?.mp present
  rw [result_extract, (lists.found name position).mpr ⟨member, there⟩,
    ← lists.given position name member there]

theorem extract_missing (lists : archive.Lists members)
    (missing : ∀ member, (name, member) ∉ members) :
    (archive.extract name).result = .error (.missingMember name) := by
  rw [result_extract]
  cases found : archive.find? name with
  | none => rfl
  | some position =>
      obtain ⟨member, there⟩ := (lists.found name position).mp found
      exact absurd (List.mem_of_getElem? there) (missing member)

/-- Archives with the same member of a name give the same under this name. -/
theorem extract_congr (lists : archive.Lists members) (listsToo : another.Lists others)
    (same : ∀ member, (name, member) ∈ members ↔ (name, member) ∈ others) :
    (archive.extract name).result = (another.extract name).result := by
  by_cases present : ∃ member, (name, member) ∈ members
  · obtain ⟨member, there⟩ := present
    rw [lists.extract_of_mem there, listsToo.extract_of_mem ((same member).mp there)]
  · have missing (member) : (name, member) ∉ members := fun there => present ⟨member, there⟩
    rw [lists.extract_missing missing, listsToo.extract_missing]
    exact fun member there => missing member ((same member).mpr there)

end Lists

/-- The archive of some members, of which the first of a name counts. -/
def ofList (members : List (String × Except String Member)) : Archive where
  size := members.length
  find? name := members.findIdx? (·.1 == name)
  member position :=
    match members[position]? with
    | some (_, member) => member
    | none => .error "specified file not found in archive"

theorem lists_ofList {members : List (String × Except String Member)}
    (distinct : (members.map Prod.fst).Nodup) : (ofList members).Lists members where
  found name position := by
    have place : (ofList members).find? name = members.findIdx? (·.1 == name) := rfl
    rw [place, List.findIdx?_eq_some_iff_getElem]
    constructor
    · intro found
      obtain ⟨within, same, -⟩ := found
      obtain rfl := beq_iff_eq.mp same
      exact ⟨members[position].2, List.getElem?_eq_getElem within⟩
    · intro listed
      obtain ⟨member, there⟩ := listed
      obtain ⟨within, same⟩ := List.getElem?_eq_some_iff.mp there
      have named : members[position].1 = name := congrArg Prod.fst same
      refine ⟨within, beq_iff_eq.mpr named, fun earlier before taken => ?_⟩
      have equal : (members.map Prod.fst)[earlier]? = (members.map Prod.fst)[position]? := by
        rw [List.getElem?_map, List.getElem?_map, there,
          List.getElem?_eq_getElem (Nat.lt_trans before within)]
        exact congrArg some (beq_iff_eq.mp taken)
      have reached := (List.getElem?_inj (by simp; omega) distinct).mp equal
      omega
  given position name member there := by
    have place : (ofList members).member position = match members[position]? with
      | some (_, member) => member
      | none => .error "specified file not found in archive" := rfl
    rw [place, there]

end FlashHost.Archive
