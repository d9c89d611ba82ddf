import FlashHost.Package
import FlashHost.Proofs.Archive.Naming

/-!
# Plans of packages

Which operations a package plans, in terms of its archive and the members that could be
extracted from it.
-/

set_option autoImplicit false

namespace FlashHost

namespace Package

def writes (images : List Image) (contents : List ByteArray) : List Operation :=
  List.zipWith (fun image data => .flash image.partition data) images contents

def Holds (archive : Archive) (image : Image) (data : ByteArray) : Prop :=
  (archive.extract image.member).result = .ok data

@[simp] theorem writes_nil (contents : List ByteArray) : writes [] contents = [] := rfl

@[simp] theorem writes_cons (image : Image) (images : List Image) (data : ByteArray)
    (contents : List ByteArray) :
    writes (image :: images) (data :: contents) =
      .flash image.partition data :: writes images contents := rfl

theorem mem_writes {images : List Image} {contents : List ByteArray} {operation : Operation}
    (member : operation ∈ writes images contents) :
    ∃ partition data, operation = .flash partition data := by
  rw [writes, ← List.map_uncurry_zip_eq_zipWith] at member
  obtain ⟨⟨image, data⟩, -, rfl⟩ := List.mem_map.mp member
  exact ⟨image.partition, data, rfl⟩

theorem writes_split {images : List Image} {contents : List ByteArray} {number : Nat}
    {image : Image} {data : ByteArray}
    (present : (images.zip contents)[number]? = some (image, data)) :
    writes images contents = (writes images contents).take number ++
      .flash image.partition data :: (writes images contents).drop (number + 1) := by
  have there : (writes images contents)[number]? = some (.flash image.partition data) := by
    rw [writes, ← List.map_uncurry_zip_eq_zipWith, List.getElem?_map, present]
    rfl
  obtain ⟨within, same⟩ := List.getElem?_eq_some_iff.mp there
  rw [← same, List.getElem_cons_drop, List.take_append_drop]

theorem flashes_eq_ok_iff {archive : Archive} {images : List Image} {operations : List Operation} :
    (flashes archive images).result = .ok operations ↔
      ∃ contents, List.Forall₂ (Holds archive) images contents ∧
        operations = writes images contents := by
  induction images generalizing operations with
  | nil =>
      constructor
      · rintro ⟨⟩
        exact ⟨[], .nil, rfl⟩
      · rintro ⟨_, ⟨⟩, rfl⟩
        rfl
  | cons image images ih =>
      rw [flashes, Outcome.result_bind, Result.bind_eq_ok_iff]
      simp only [Outcome.result_bind, Outcome.result_mapError, Result.bind_eq_ok_iff,
        Result.mapError_eq_ok_iff, ih]
      constructor
      · rintro ⟨data, held, _, ⟨contents, rest, rfl⟩, ⟨⟩⟩
        exact ⟨data :: contents, .cons held rest, rfl⟩
      · rintro ⟨_, _ | ⟨held, rest⟩, rfl⟩
        exact ⟨_, held, _, ⟨_, rest, rfl⟩, rfl⟩

/-- A plan exists if the file is an archive that holds every image of the manifest. It shows
the versions and writes the images in the order of the manifest. -/
theorem plan_eq_ok_iff {files : Files} {path : String} {operations : List Operation} :
    (plan files path).result = .ok operations ↔
      ∃ data archive contents, files.read path = .ok data ∧ files.archives data = .ok archive ∧
        List.Forall₂ (Holds archive) manifest contents ∧
        operations = versionDump ++ writes manifest contents := by
  simp only [plan, Outcome.result_bind, Result.bind_eq_ok_iff, Files.result_load,
    Outcome.result_mapError, Result.mapError_eq_ok_iff, Archive.open_eq_ok_iff, flashes_eq_ok_iff]
  constructor
  · rintro ⟨data, loaded, archive, opened, _, -, _, ⟨contents, held, rfl⟩, ⟨⟩⟩
    exact ⟨data, archive, contents, loaded, opened, held, rfl⟩
  · rintro ⟨data, archive, contents, loaded, opened, held, rfl⟩
    exact ⟨data, loaded, archive, opened, (), rfl, _, ⟨contents, held, rfl⟩, rfl⟩

end Package

end FlashHost
