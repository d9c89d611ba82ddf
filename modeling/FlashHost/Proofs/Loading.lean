import FlashHost.Package
import FlashHost.Proofs.Outcome

/-!
# Loading

Files are loaded and packages unpacked with nothing to be seen of it but just that.
-/

set_option autoImplicit false

namespace FlashHost

/-- The notes of files and archives, and what is taken of these. -/
def Event.IsLoading : Event → Prop
  | .noted (.fileLoaded _ _) | .noted (.archiveOpened _) | .noted (.memberExtracted _ _ _)
  | .noted (.packagePlanned _ _) | .drawn _ _ _ => True
  | _ => False

abbrev Outcome.Loads {α : Type} (outcome : Outcome α) : Prop :=
  outcome.Only Event.IsLoading

open Outcome

theorem Files.loads_load (files : Files) (path : String) : (files.load path).Loads := by
  rw [Files.load]
  cases files.read path with
  | error fault => exact only_fail _
  | ok data => exact Only.bind (only_emit trivial) fun _ => only_pure _

namespace Archive

private theorem loads_open (reader : Reader) (data : ByteArray) : (Archive.open reader data).Loads := by
  rw [Archive.open]
  cases reader data with
  | error reason => exact only_fail _
  | ok archive => exact Only.bind (only_emit trivial) fun _ => only_pure _

theorem loads_memberOf (archive : Archive) (name : String) (position : Nat) :
    (archive.memberOf name position).Loads := by
  rw [memberOf]
  cases archive.member position with
  | error reason => exact only_fail _
  | ok member => exact only_pure _

private theorem loads_lookup (archive : Archive) (name : String) : (archive.lookup name).Loads := by
  rw [lookup]
  cases archive.find? name with
  | none => exact only_pure _
  | some position => exact (archive.loads_memberOf name position).bind fun _ => only_pure _

private theorem loads_draw (entry : Entry) (stream : Stream) : (draw entry stream).Loads := by
  refine Only.bind (only_emit trivial) fun _ => ?_
  split
  · exact only_fail _
  · exact only_pure _

private theorem loads_decompress (archive : Archive) (entry : Entry) :
    (archive.decompress entry).Loads := by
  rw [decompress]
  split
  · exact only_fail _
  · refine (archive.loads_memberOf _ _).bind fun member => ?_
    exact (loads_draw entry member.content).bind fun _ =>
      Only.bind (only_emit trivial) fun _ => only_pure _

private theorem loads_extract (archive : Archive) (name : String) : (archive.extract name).Loads := by
  refine (archive.loads_lookup name).bind ?_
  intro found
  cases found with
  | none => exact only_fail _
  | some entry => exact archive.loads_decompress entry

end Archive

namespace Package

private theorem loads_flashes (archive : Archive) (images : List Image) :
    (flashes archive images).Loads := by
  induction images with
  | nil => exact only_pure _
  | cons image images ih =>
      exact ((archive.loads_extract image.member).mapError _).bind fun _ =>
        ih.bind fun _ => only_pure _

theorem loads_plan (files : Files) (path : String) : (plan files path).Loads := by
  refine (files.loads_load path).bind fun data => ?_
  refine ((Archive.loads_open files.archives data).mapError _).bind fun archive => ?_
  refine Only.bind (only_emit trivial) fun _ => ?_
  exact (loads_flashes archive manifest).bind fun _ => only_pure _

end Package

end FlashHost
