import FlashHost.Fault

/-!
# File trees

A tree of directories and files held as data, and the reading of a path in it: one
name after another, `.` and `..` included, starting at the working directory or,
for an absolute path, at a root in which nothing else is known.
-/

set_option autoImplicit false

namespace FlashHost.Files

/-- The place of a directory or file: the names that lead to it from the working
directory. -/
abbrev Place := List String

inductive Node where
  | directory
  | file (data : ByteArray)

/-- A file tree: the nodes at the places below the working directory. A later entry for
a place counts before an earlier one. -/
structure Tree where
  entries : List (Place × Node)

/-- The longest path, in bytes, with the byte that ends it. -/
def pathLimit : Nat := 4096

def nameLimit : Nat := 255

inductive Position where
  /-- So many levels above the working directory, which is a directory. -/
  | above (levels : Nat)
  | below (place : Place)
  | root

namespace Tree

def empty : Tree := ⟨[]⟩

def node? (tree : Tree) (place : Place) : Option Node :=
  match place with
  | [] => some .directory
  | place => (tree.entries.find? fun (entry, _) => entry == place).map Prod.snd

/-- The names of a path that say something: empty names and `.` do not. -/
def names (path : String) : List String :=
  (path.splitOn "/").filter fun name => name ≠ "" ∧ name ≠ "."

/-- The places of the directories that lead to a place, the place excluded. -/
def parents : Place → List Place
  | [] => []
  | name :: rest => [] :: (parents rest).map (name :: ·)

/-- The place that a path names when every `..` in it follows a directory. -/
def placeOf (path : String) : Place :=
  (names path).foldl (fun place name => if name = ".." then place.dropLast else place ++ [name]) []

def insert (tree : Tree) (path : String) (node : Node) : Tree :=
  let place := placeOf path
  let missing := (parents place).filter fun parent => (tree.node? parent).isNone
  ⟨(place, node) :: missing.map (·, .directory) ++ tree.entries⟩

def enter (tree : Tree) (position : Position) (name : String) :
    Except FileFault (Position × Option ByteArray) :=
  if name = "" ∨ name = "." then .ok (position, none)
  else if name = ".." then
    match position with
    | .root => .ok (.root, none)
    | .above levels => .ok (.above (levels + 1), none)
    | .below [] => .ok (.above 1, none)
    | .below place => .ok (.below place.dropLast, none)
  else if nameLimit < name.utf8ByteSize then .error .nameTooLong
  else
    match position with
    | .root | .above _ => .error .missing
    | .below place =>
      match tree.node? (place ++ [name]) with
      | none => .error .missing
      | some .directory => .ok (.below (place ++ [name]), none)
      | some (.file data) => .ok (position, some data)

/-- The data of the file at the end of a path. A path may not go on after a file, not
even with nothing. -/
def walk (tree : Tree) : Position → List String → Except FileFault ByteArray
  | _, [] => .error .isDirectory
  | position, name :: names =>
    match tree.enter position name with
    | .error fault => .error fault
    | .ok (position, none) => walk tree position names
    | .ok (_, some data) => if names = [] then .ok data else .error .notDirectory

def read (tree : Tree) (path : String) : Except FileFault ByteArray :=
  if path.toList.contains '\x00' then .error .nulByte
  else if path = "" then .error .missing
  else if pathLimit ≤ path.utf8ByteSize then .error .nameTooLong
  else
    match path.splitOn "/" with
    | "" :: names => tree.walk .root names
    | names => tree.walk (.below []) names

end Tree

end FlashHost.Files
