import FlashHost.Archive

/-!
# Files

Files are read whole and by their path, and some of them are archives. What reading gives is
a parameter of everything that loads files, so that it can be a disk as well as a tree of
data, and so is what an archive is.
-/

set_option autoImplicit false

namespace FlashHost

structure Files where
  read : (path : String) → Except FileFault ByteArray
  archives : Archive.Reader

def Files.load (files : Files) (path : String) : Outcome ByteArray :=
  match files.read path with
  | .error fault => Outcome.fail (.cannotLoad path fault)
  | .ok data => do
    Outcome.note (.fileLoaded data.size path)
    return data

end FlashHost
