import FlashHost.Proofs.CommandLine.Queueing

/-!
# All or nothing

A package is planned as a whole or not at all. Only the images of the manifest count, the
first of them that cannot be extracted is the one that is reported, and a package without a
plan leaves no operation on the command line.
-/

set_option autoImplicit false

namespace FlashHost

namespace Package

def Opens (files : Files) (path : String) (archive : Archive) : Prop :=
  ∃ data, files.read path = .ok data ∧ files.archives data = .ok archive

inductive Plans (files : Files) (path : String) : Except Error (List Operation) → Prop where
  | unloaded {fault} :
      files.read path = .error fault → Plans files path (.error (.cannotLoad path fault))
  | unreadable {data reason} :
      files.read path = .ok data → files.archives data = .error reason →
      Plans files path (.error (.packageUnreadable path reason))
  | missing {archive earlier image later} :
      Opens files path archive →
      manifest = earlier ++ image :: later → (∀ one ∈ earlier, ∃ data, Holds archive one data) →
      (archive.extract image.member).result = .error (.missingMember image.member) →
      Plans files path (.error (.packageIncomplete image.member))
  | undecodable {archive earlier image later fault} :
      Opens files path archive →
      manifest = earlier ++ image :: later → (∀ one ∈ earlier, ∃ data, Holds archive one data) →
      (archive.extract image.member).result = .error (.undecodable image.member fault) →
      Plans files path (.error (.undecodable image.member fault))
  | whole {archive contents} :
      Opens files path archive → List.Forall₂ (Holds archive) manifest contents →
      Plans files path (.ok (versionDump ++ writes manifest contents))

theorem result_flashes (archive : Archive) (images : List Image) :
    (flashes archive images).result = images.mapM fun image =>
      ((archive.extract image.member).result.mapError missingImage).map
        (.flash image.partition) := by
  induction images with
  | nil => rfl
  | cons image images ih =>
      rw [flashes, Outcome.result_bind, Outcome.result_mapError, List.mapM_cons, ← ih]
      cases (archive.extract image.member).result with
      | error error => rfl
      | ok data =>
          rw [Result.mapError_ok, Result.map_ok, Result.ok_bind, Result.ok_bind,
            Outcome.result_bind]
          rfl

/-- The first image that cannot be extracted gives the error of all. -/
theorem flashes_eq_error_iff {archive : Archive} {images : List Image} {error : Error} :
    (flashes archive images).result = .error error ↔
      ∃ earlier image later cause, images = earlier ++ image :: later ∧
        (∀ one ∈ earlier, ∃ data, Holds archive one data) ∧
        (archive.extract image.member).result = .error cause ∧ missingImage cause = error := by
  have good (image : Image) : (∃ output, ((archive.extract image.member).result.mapError
      missingImage).map (Operation.flash image.partition) = .ok output) ↔
        ∃ data, Holds archive image data := by
    unfold Holds
    cases (archive.extract image.member).result <;> simp
  have bad (image : Image) : ((archive.extract image.member).result.mapError
      missingImage).map (Operation.flash image.partition) = .error error ↔
        ∃ cause, (archive.extract image.member).result = .error cause ∧
          missingImage cause = error := by
    cases (archive.extract image.member).result <;> simp
  rw [result_flashes, Result.mapM_eq_error_iff]
  simp only [good, bad]
  constructor
  · rintro ⟨earlier, image, later, parts, held, cause, failed, same⟩
    exact ⟨earlier, image, later, cause, parts, held, failed, same⟩
  · rintro ⟨earlier, image, later, cause, parts, held, failed, same⟩
    exact ⟨earlier, image, later, parts, held, cause, failed, same⟩

/-- Of two archives, only the images are compared. -/
theorem flashes_congr {archive another : Archive} {images : List Image}
    (same : ∀ image ∈ images,
      (archive.extract image.member).result = (another.extract image.member).result) :
    (flashes archive images).result = (flashes another images).result := by
  rw [result_flashes, result_flashes]
  induction images with
  | nil => rfl
  | cons image images ih =>
      obtain ⟨own, others⟩ := List.forall_mem_cons.mp same
      rw [List.mapM_cons, List.mapM_cons, own, ih others]

section Opens

variable {files : Files} {path : String} {archive : Archive}

/-- Once the archive is open, the plan is that of its images. -/
theorem Opens.result_plan (opens : Opens files path archive) :
    (plan files path).result = (flashes archive manifest).result.map (versionDump ++ ·) := by
  obtain ⟨data, loaded, opened⟩ := opens
  simp only [plan, Outcome.result_bind, Files.result_load, loaded, Outcome.result_mapError,
    Archive.result_open, opened, Outcome.result_note, Result.mapError_ok, Result.ok_bind]
  rfl

theorem plan_unloaded {fault : FileFault} (failed : files.read path = .error fault) :
    (plan files path).result = .error (.cannotLoad path fault) := by
  rw [plan, Outcome.result_bind, Files.result_load, failed]
  rfl

theorem plan_unreadable {data : ByteArray} {reason : String} (loaded : files.read path = .ok data)
    (failed : files.archives data = .error reason) :
    (plan files path).result = .error (.packageUnreadable path reason) := by
  rw [plan, Outcome.result_bind, Files.result_load, loaded, Result.mapError_ok, Result.ok_bind,
    Outcome.result_bind, Outcome.result_mapError, Archive.result_open, failed]
  rfl

theorem plans_plan (files : Files) (path : String) : Plans files path (plan files path).result := by
  cases loaded : files.read path with
  | error fault =>
      rw [plan_unloaded loaded]
      exact .unloaded loaded
  | ok data =>
      cases opened : files.archives data with
      | error reason =>
          rw [plan_unreadable loaded opened]
          exact .unreadable loaded opened
      | ok archive =>
          have opens : Opens files path archive := ⟨data, loaded, opened⟩
          rw [opens.result_plan]
          cases flashed : (flashes archive manifest).result with
          | ok operations =>
              obtain ⟨contents, held, rfl⟩ := flashes_eq_ok_iff.mp flashed
              exact .whole opens held
          | error error =>
              obtain ⟨earlier, image, later, cause, parts, held, failed, rfl⟩ :=
                flashes_eq_error_iff.mp flashed
              obtain rfl | ⟨fault, rfl⟩ := Archive.extract_failed failed
              · exact .missing opens parts held failed
              · exact .undecodable opens parts held failed

/-- A package without a plan is a fault of files, and none of the command line. -/
theorem kind_of_plan {error : Error} (failed : (plan files path).result = .error error) :
    error.kind = .file ∨ error.kind = .package ∨ error.kind = .member := by
  have plans := plans_plan files path
  rw [failed] at plans
  cases plans with
  | unloaded _ => exact .inl rfl
  | unreadable _ _ => exact .inr (.inl rfl)
  | missing _ _ _ _ => exact .inr (.inl rfl)
  | undecodable _ _ _ _ => exact .inr (.inr rfl)

theorem Plans.eq {result : Except Error (List Operation)} (plans : Plans files path result) :
    (plan files path).result = result := by
  cases plans with
  | unloaded failed => exact plan_unloaded failed
  | unreadable loaded failed => exact plan_unreadable loaded failed
  | missing opens parts held failed =>
      rw [opens.result_plan, flashes_eq_error_iff.mpr ⟨_, _, _, _, parts, held, failed, rfl⟩]
      rfl
  | undecodable opens parts held failed =>
      rw [opens.result_plan, flashes_eq_error_iff.mpr ⟨_, _, _, _, parts, held, failed, rfl⟩]
      rfl
  | whole opens held =>
      rw [opens.result_plan, flashes_eq_ok_iff.mpr ⟨_, held, rfl⟩]
      rfl

theorem Opens.plan_congr {others : Files} {place : String} {another : Archive}
    (opens : Opens files path archive) (opensToo : Opens others place another)
    (same : ∀ image ∈ manifest,
      (archive.extract image.member).result = (another.extract image.member).result) :
    (plan files path).result = (plan others place).result := by
  rw [opens.result_plan, opensToo.result_plan, flashes_congr same]

end Opens

/-- A package is planned as a whole or not at all.

Nothing but its images counts, whatever order its members stand in and whatever else it
holds. A line that comes to a package without a plan ends there with the error of the
package, and of its operations only those of the earlier commands were queued. -/
theorem plan_whole (files : Files) (path : String) :
    (∀ result, (plan files path).result = result ↔ Plans files path result) ∧
    (∀ archive others place another, Opens files path archive → Opens others place another →
      (∀ image ∈ manifest,
        (archive.extract image.member).result = (another.extract image.member).result) →
      (plan files path).result = (plan others place).result) ∧
    (∀ archive members others place another further,
      Opens files path archive → archive.Lists members →
      Opens others place another → another.Lists further →
      (∀ image ∈ manifest, ∀ member,
        (image.member, member) ∈ members ↔ (image.member, member) ∈ further) →
      (plan files path).result = (plan others place).result) ∧
    ∀ error, (plan files path).result = .error error →
      ∀ serial words earlier later ending blocks,
        CommandLine.Cuts words (earlier ++ .flashAll path :: later) ending →
        earlier.mapM (CommandLine.Command.operations files) = .ok blocks →
        (CommandLine.read files serial words).result = .error error ∧
          queued (CommandLine.read files serial words).events = blocks.flatten := by
  refine ⟨fun result => ?_, ?_, ?_, ?_⟩
  · constructor
    · rintro rfl
      exact plans_plan files path
    · exact Plans.eq
  · intro archive others place another opens opensToo same
    exact opens.plan_congr opensToo same
  · intro archive members others place another further opens lists opensToo listsToo same
    exact opens.plan_congr opensToo fun image member =>
      lists.extract_congr listsToo (same image member)
  · intro error failed serial words earlier later ending blocks cuts done
    exact CommandLine.read_refused cuts done failed serial

-- One fixed instance, whatever other instances are imported.
local instance decidableHalf : DecidableEq ByteArray := ByteArray.instDecidableEq

/-- A package of one image, stored. -/
def half : ByteArray :=
  ⟨#[80, 75, 3, 4, 20, 0, 0, 0, 0, 0, 0, 0, 33, 0, 46, 122, 102, 76, 1, 0, 0, 0, 1, 0, 0, 0, 7, 0,
  0, 0, 100, 110, 120, 46, 98, 105, 110, 7, 80, 75, 1, 2, 20, 0, 20, 0, 0, 0, 0, 0, 0, 0, 33, 0,
  46, 122, 102, 76, 1, 0, 0, 0, 1, 0, 0, 0, 7, 0, 0, 0, 0, 0, 0, 0, 0, 0, 0, 0, 0, 0, 0, 0, 0, 0,
  100, 110, 120, 46, 98, 105, 110, 80, 75, 5, 6, 0, 0, 0, 0, 1, 0, 1, 0, 53, 0, 0, 0, 38, 0, 0, 0,
  0, 0]⟩

/-- A package of the same image after an empty member. -/
def mixedHalf : ByteArray :=
  ⟨#[80, 75, 3, 4, 20, 0, 0, 0, 0, 0, 0, 0, 33, 0, 0, 0, 0, 0, 0, 0, 0, 0, 0, 0, 0, 0, 1, 0, 0, 0,
  97, 80, 75, 3, 4, 20, 0, 0, 0, 0, 0, 0, 0, 33, 0, 46, 122, 102, 76, 1, 0, 0, 0, 1, 0, 0, 0, 7, 0,
  0, 0, 100, 110, 120, 46, 98, 105, 110, 7, 80, 75, 1, 2, 20, 0, 20, 0, 0, 0, 0, 0, 0, 0, 33, 0, 0,
  0, 0, 0, 0, 0, 0, 0, 0, 0, 0, 0, 1, 0, 0, 0, 0, 0, 0, 0, 0, 0, 0, 0, 0, 0, 0, 0, 0, 0, 97, 80,
  75, 1, 2, 20, 0, 20, 0, 0, 0, 0, 0, 0, 0, 33, 0, 46, 122, 102, 76, 1, 0, 0, 0, 1, 0, 0, 0, 7, 0,
  0, 0, 0, 0, 0, 0, 0, 0, 0, 0, 0, 0, 31, 0, 0, 0, 100, 110, 120, 46, 98, 105, 110, 80, 75, 5, 6,
  0, 0, 0, 0, 2, 0, 2, 0, 100, 0, 0, 0, 69, 0, 0, 0, 0, 0]⟩

def halfMembers : List (String × Except String Archive.Member) :=
  [("dnx.bin", .ok ⟨1, 1, .of ⟨#[7]⟩ .finished⟩)]

def mixedHalfMembers : List (String × Except String Archive.Member) :=
  ("a", .ok ⟨0, 0, .of .empty .finished⟩) :: halfMembers

def halfFiles : Files where
  read path := if path = "a.zip" then .ok half else .ok mixedHalf
  archives data :=
    if data = half then .ok (.ofList halfMembers)
    else if data = mixedHalf then .ok (.ofList mixedHalfMembers)
    else .error "invalid Zip archive: Could not find EOCD"

/-- Two packages that lack the same image fail alike, and leave what stands before them on a
line. -/
theorem plan_halves :
    (plan halfFiles "a.zip").result = (plan halfFiles "b.zip").result ∧
    (CommandLine.read halfFiles none ["erase", "cache", "flashall", "a.zip"]).result =
      .error (.packageIncomplete "ifwi.bin") ∧
    queued (CommandLine.read halfFiles none ["erase", "cache", "flashall", "a.zip"]).events =
      [.erase "cache"] := by
  obtain ⟨plans, -, same, line⟩ := plan_whole halfFiles "a.zip"
  have other : mixedHalf ≠ half := by decide +kernel
  have first : Opens halfFiles "a.zip" (.ofList halfMembers) := ⟨half, rfl, by simp [halfFiles]⟩
  have second : Opens halfFiles "b.zip" (.ofList mixedHalfMembers) :=
    ⟨mixedHalf, rfl, by simp [halfFiles, other]⟩
  have lists : (Archive.ofList halfMembers).Lists halfMembers := Archive.lists_ofList (by decide)
  have listsToo : (Archive.ofList mixedHalfMembers).Lists mixedHalfMembers :=
    Archive.lists_ofList (by decide)
  have alike := same _ _ _ _ _ _ first lists second listsToo
    (by simp [manifest, halfMembers, mixedHalfMembers])
  have held : Holds (.ofList halfMembers) ⟨"dnx.bin", "dnx"⟩ ⟨#[7]⟩ :=
    (lists.extract_of_mem List.mem_cons_self).trans rfl
  have reached : ∀ one ∈ [(⟨"dnx.bin", "dnx"⟩ : Image)],
      ∃ data, Holds (.ofList halfMembers) one data := by
    simpa using ⟨_, held⟩
  have missing : Plans halfFiles "a.zip" (.error (.packageIncomplete "ifwi.bin")) :=
    .missing first rfl reached (lists.extract_missing (by simp [halfMembers]))
  have cuts : CommandLine.Cuts ["erase", "cache", "flashall", "a.zip"]
      [.erase "cache", .flashAll "a.zip"] .complete := by
    have closed : ∀ command ∈ [.erase "cache", .flashAll "a.zip"],
        CommandLine.Command.word command ≠ .oem := by simp [CommandLine.Command.word]
    exact CommandLine.Cuts.nil.after closed
  exact ⟨alike, line _ ((plans _).mpr missing) none _ [.erase "cache"] [] _ _ cuts rfl⟩

end Package

end FlashHost
