/-!
# Faults of ZIP files

Why bytes are no ZIP file, and why a member of one cannot be read, as causes; `message` gives
the words in which they are reported.
-/

set_option autoImplicit false

namespace FlashHost.Zip

inductive Fault where
  | cutShort
  | commentCutShort
  | noEndRecord
  | badDirectoryOffset
  | noDirectory
  | badLocatorOffset
  | severalDisks
  | lowEndRecordLength
  | longEndRecord
  | locatorDisagrees
  | badEndRecordLength
  | badEntryCount
  | noWideEndRecord
deriving DecidableEq, Repr

def Fault.message : Fault → String
  | .cutShort => "i/o error"
  | .commentCutShort => "invalid Zip archive: EOCD comment exceeds file boundary"
  | .noEndRecord => "invalid Zip archive: Could not find EOCD"
  | .badDirectoryOffset => "invalid Zip archive: Invalid CDFH offset in EOCD"
  | .noDirectory => "invalid Zip archive: No CDFH found"
  | .badLocatorOffset => "invalid Zip archive: Invalid EOCD64 Locator CD offset"
  | .severalDisks => "invalid Zip archive: Multi-disk ZIP files are not supported"
  | .lowEndRecordLength => "invalid Zip archive: Low EOCD64 record size"
  | .longEndRecord => "invalid Zip archive: EOCD64 extends beyond EOCD64 locator"
  | .locatorDisagrees => "invalid Zip archive: Invalid EOCD64: inconsistency with Locator data"
  | .badEndRecordLength => "invalid Zip archive: Invalid EOCD64: inconsistent length"
  | .badEntryCount => "invalid Zip archive: Invalid EOCD64: inconsistent number of files"
  | .noWideEndRecord => "invalid Zip archive: Could not find EOCD64"

inductive MemberFault where
  | outOfRange
  | encrypted
  | badLocalHeader
  | unknownMethod
  | wrongPassword
  | corrupt
  | incomplete
  | badChecksum
deriving DecidableEq, Repr

def MemberFault.message : MemberFault → String
  | .outOfRange => "specified file not found in archive"
  | .encrypted => "unsupported Zip archive: Password required to decrypt file"
  | .badLocalHeader => "invalid Zip archive: Invalid local file header"
  | .unknownMethod => "unsupported Zip archive: Compression method not supported"
  | .wrongPassword => "provided password is incorrect"
  | .corrupt => "corrupt deflate stream"
  | .incomplete => "incomplete deflate stream"
  | .badChecksum => "Invalid checksum"

end FlashHost.Zip
