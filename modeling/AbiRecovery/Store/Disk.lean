import AbiRecovery.Failure
import AbiRecovery.Store.FilePath
import Std.Data.TreeMap

/-!
# A disk

Files and directories by location, with the rules by which a path leads to one. A path is followed
from the root or from the working directory, name by name; what is passed on the way must be a
directory. A path that no place can have is refused before it is followed (`Disk.start`), and a name
that is too long where it is reached (`Disk.follow`).

Only `Disk.put` changes what is at a location, and only there (`get?_put`).
-/

namespace AbiRecovery

/-- What is at a location. -/
inductive Entry where
  | directory
  | file (content : ByteArray)

/-- A place on a disk: the names on the way from the root, each with a slash in front of it. The
root is the empty text. -/
abbrev Location := String

/-- The places on the way from the root, the last one first and without the root. -/
abbrev Trail := List Location

namespace Trail

/-- The place where a trail ends. -/
def location : Trail → Location
  | [] => ""
  | location :: _ => location

/-- Goes on to a name. -/
def enter (trail : Trail) (name : String) : Trail :=
  (trail.location ++ "/" ++ name) :: trail

/-- The trail along names. -/
def ofNames (names : List String) : Trail :=
  names.foldl enter []

/-- Whether a trail goes along names of directories. -/
def Named (trail : Trail) : Prop :=
  ∃ names, names.all FilePath.isName ∧ trail = ofNames names

end Trail

/-- Files and directories, and the way to the working directory. -/
structure Disk where
  entries : Std.TreeMap Location Entry
  workingDirectory : Trail
  named : workingDirectory.Named

namespace Disk

/-- What is at a location. -/
def get? (disk : Disk) (location : Location) : Option Entry :=
  disk.entries[location]?

/-- Puts an entry at a location. -/
def put (disk : Disk) (location : Location) (entry : Entry) : Disk :=
  { disk with entries := disk.entries.insert location entry }

/-- What was put at a location is there, and all else is as before. -/
theorem get?_put (disk : Disk) (location other : Location) (entry : Entry) :
    (disk.put location entry).get? other =
      if location = other then some entry else disk.get? other := by
  rw [get?, get?, put, Std.TreeMap.getElem?_insert]
  simp

/-- A disk with nothing but the working directory, which is reached along the given names, and the
directories around it. -/
def blank (names : List String) : Disk :=
  let names := names.filter FilePath.isName
  let root : Disk :=
    { entries := (∅ : Std.TreeMap Location Entry).insert "" .directory
      workingDirectory := Trail.ofNames names
      named := ⟨names, by simp [names], rfl⟩ }
  (Trail.ofNames names).foldl (fun disk location => disk.put location .directory) root

/-- The path of the working directory. -/
def workingPath (disk : Disk) : String :=
  match disk.workingDirectory with
  | [] => "/"
  | location :: _ => location

/-- The path of the working directory, as long as the directory is there. -/
def currentPath (disk : Disk) : Except IoFault String :=
  match disk.get? disk.workingDirectory.location with
  | some .directory => .ok disk.workingPath
  | _ => .error .notFound

/-! ### Following a path -/

/-- The most bytes that a name may have. -/
def maxNameBytes : Nat := 255

/-- The most bytes that a path may have. -/
def maxPathBytes : Nat := 4095

/-- The trail at which a path starts. A path must not have a zero character in it, must not be empty
and must not be too long, whatever is on the disk. -/
def start (disk : Disk) (path : String) : Except IoFault Trail :=
  if '\x00' ∈ path.toList then .error .zeroCharacter
  else if path = "" then .error .notFound
  else if maxPathBytes < path.utf8ByteSize then .error .nameTooLong
  else .ok (if FilePath.isAbsolute path then [] else disk.workingDirectory)

/-- Follows the parts of a path. Each part must start from a directory, but nothing has to be where
the last one leads. -/
def follow (disk : Disk) (trail : Trail) : List String → Except IoFault Trail
  | [] => .ok trail
  | part :: parts =>
    match disk.get? trail.location with
    | none => .error .notFound
    | some (.file _) => .error .notDirectory
    | some .directory =>
      if FilePath.isBlank part then follow disk trail parts
      else if part = ".." then follow disk trail.tail parts
      else if maxNameBytes < part.utf8ByteSize then .error .nameTooLong
      else follow disk (trail.enter part) parts

/-- Follows the given parts from where the path starts. -/
def followFrom (disk : Disk) (path : String) (parts : List String) : Except IoFault Trail :=
  match disk.start path with
  | .error fault => .error fault
  | .ok trail => disk.follow trail parts

/-- What a path leads to. -/
def lookup (disk : Disk) (path : String) : Except IoFault Entry :=
  match disk.followFrom path (FilePath.parts path) with
  | .error fault => .error fault
  | .ok trail =>
    match disk.get? trail.location with
    | some entry => .ok entry
    | none => .error .notFound

/-- Whether a path leads to anything. -/
def pathExists (disk : Disk) (path : String) : Bool :=
  match disk.lookup path with
  | .ok _ => true
  | .error _ => false

/-- Whether a path leads to a directory. -/
def isDirectory (disk : Disk) (path : String) : Bool :=
  match disk.lookup path with
  | .ok .directory => true
  | _ => false

/-- The text of a file. -/
def readText (disk : Disk) (path : String) : Except IoFault String :=
  match disk.lookup path with
  | .error fault => .error fault
  | .ok .directory => .error .isDirectory
  | .ok (.file content) =>
    match String.fromUTF8? content with
    | some text => .ok text
    | none => .error .notText

/-! ### Making files and directories -/

/-- The parts of a path without the slashes at its end. -/
def namedParts (path : String) : List String :=
  ((FilePath.parts path).reverse.dropWhile (· = "")).reverse

/-- Whether a path ends in dots, or is the root: it then leads to a directory that has its name
already. -/
def endsInDots (path : String) : Bool :=
  match (namedParts path).getLast? with
  | none => true
  | some name => name = "." || name = ".."

/-- Whether slashes at the end of a path ask for a directory. -/
def asksForDirectory (path : String) : Bool :=
  (namedParts path).length < (FilePath.parts path).length

/-- The location that the last name of a path stands for, where nothing has to be. A path that ends
in dots has the fault `taken`. -/
def place (disk : Disk) (path : String) (taken : IoFault) : Except IoFault Location :=
  match disk.followFrom path (namedParts path) with
  | .error fault => .error fault
  | .ok trail => if endsInDots path then .error taken else .ok trail.location

/-- The location at which a file can be made or overwritten. A path that asks for a directory is
refused as soon as the directory around its last name is reached. -/
def fileLocation (disk : Disk) (path : String) : Except IoFault Location :=
  if asksForDirectory path then
    match disk.followFrom path ((namedParts path).dropLast ++ [""]) with
    | .error fault => .error fault
    | .ok _ => .error .isDirectory
  else
    match disk.place path .isDirectory with
    | .error fault => .error fault
    | .ok location =>
      match disk.get? location with
      | some .directory => .error .isDirectory
      | _ => .ok location

/-- Makes a file with the given content, or overwrites the one that is there. -/
def writeBytes (disk : Disk) (path : String) (content : ByteArray) : Except IoFault Disk :=
  (disk.fileLocation path).map fun location => disk.put location (.file content)

/-- Makes a directory in a directory that exists. -/
def createDirectory (disk : Disk) (path : String) : Except IoFault Disk :=
  match disk.place path .alreadyExists with
  | .error fault => .error fault
  | .ok location =>
    if (disk.get? location).isSome then .error .alreadyExists
    else .ok (disk.put location .directory)

end Disk

end AbiRecovery
