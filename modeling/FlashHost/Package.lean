import FlashHost.Archive
import FlashHost.Files

/-!
# Packages

A package is an archive with every image that a full reflash needs. Which images
those are, and in what order they are written, is fixed: a plan exists only when
all of them could be extracted.
-/

set_option autoImplicit false

namespace FlashHost.Package

/-- A required member of a package and the partition that it is written to. -/
structure Image where
  member : String
  partition : String
deriving DecidableEq, Repr

/-- The images of a package in the order in which they are written. -/
def manifest : List Image :=
  [⟨"dnx.bin", "dnx"⟩, ⟨"ifwi.bin", "ifwi"⟩, ⟨"stitch.normalos.bin", "boot"⟩,
   ⟨"stitch.preos.bin", "preos"⟩, ⟨"platform.img.gz", "platform"⟩]

def separator : String :=
  String.ofList (List.replicate 44 '-')

def versionDump : List Operation :=
  [.notice separator, .display "preos" "Current Pre-OS Version ",
   .display "ifwi" "Current IFWI Version   ", .notice separator]

/-- A member that is not there is missing from the package. -/
def missingImage : Error → Error
  | .missingMember name => .packageIncomplete name
  | error => error

/-- An archive that cannot be opened makes the file at its path no package. -/
def unreadable (path : String) : Error → Error
  | .invalidArchive reason => .packageUnreadable path reason
  | error => error

def flashes (archive : Archive) : List Image → Outcome (List Operation)
  | [] => return []
  | image :: images => do
    let data ← (archive.extract image.member).mapError missingImage
    let rest ← flashes archive images
    return .flash image.partition data :: rest

def plan (files : Files) (path : String) : Outcome (List Operation) := do
  let data ← files.load path
  let archive ← (Archive.open files.archives data).mapError (unreadable path)
  Outcome.note (.packagePlanned path archive.size)
  let operations ← flashes archive manifest
  return versionDump ++ operations

end FlashHost.Package
