import AbiRecovery.Event
import AbiRecovery.Store.Disk

/-!
# Hosts

A `Host` is what a run works on: files, a log, and a place to print to. The world is a host that is
a value, so that what a run does to it can be stated; another host is the machine.
-/

namespace AbiRecovery

/-- What a run works on. -/
class Host (m : Type → Type) where
  /-- The absolute path of the working directory. -/
  workingDirectory : m (Except IoFault String)
  /-- Whether a path leads to anything. -/
  pathExists : String → m Bool
  /-- The text of a file. -/
  readText : String → m (Except IoFault String)
  /-- Whether a path leads to a directory. -/
  isDirectory : String → m Bool
  /-- Makes a directory in a directory that exists. -/
  createDirectory : String → m (Except IoFault Unit)
  /-- Makes an empty file, or empties the one that is there. -/
  createFile : String → m (Except IoFault Unit)
  /-- Writes the text of a file that was made. -/
  writeText : String → String → m (Except IoFault Unit)
  /-- Reports an event. -/
  log : Event → m Unit
  /-- Prints a line. -/
  print : String → m Unit

/-- A run that can stop works on the same host. -/
instance {m : Type → Type} {ε : Type} [Monad m] [Host m] : Host (ExceptT ε m) where
  workingDirectory := ExceptT.lift Host.workingDirectory
  pathExists path := ExceptT.lift (Host.pathExists path)
  readText path := ExceptT.lift (Host.readText path)
  isDirectory path := ExceptT.lift (Host.isDirectory path)
  createDirectory path := ExceptT.lift (Host.createDirectory path)
  createFile path := ExceptT.lift (Host.createFile path)
  writeText path text := ExceptT.lift (Host.writeText path text)
  log event := ExceptT.lift (Host.log event)
  print line := ExceptT.lift (Host.print line)

/-- A disk, with what was reported and printed so far. -/
structure World where
  disk : Disk
  events : List Event := []
  printed : List String := []

namespace World

/-- The world after an action on its disk that can fail. -/
def update (world : World) (result : Except IoFault Disk) : Except IoFault Unit × World :=
  match result with
  | .ok disk => (.ok (), { world with disk := disk })
  | .error fault => (.error fault, world)

end World

instance : Host (StateM World) where
  workingDirectory := fun world => (world.disk.currentPath, world)
  pathExists path := fun world => (world.disk.pathExists path, world)
  readText path := fun world => (world.disk.readText path, world)
  isDirectory path := fun world => (world.disk.isDirectory path, world)
  createDirectory path := fun world => world.update (world.disk.createDirectory path)
  createFile path := fun world => world.update (world.disk.writeBytes path ByteArray.empty)
  writeText path text := fun world => world.update (world.disk.writeBytes path text.toUTF8)
  log event := fun world => ((), { world with events := world.events ++ [event] })
  print line := fun world => ((), { world with printed := world.printed ++ [line] })

section

variable {m : Type → Type} [Monad m] [Host m]

/-- A directory that could not be made is no fault if it is there. -/
def acceptDirectory (path : String) (fault : IoFault) : m (Except IoFault Unit) := do
  if ← Host.isDirectory path then return .ok () else return .error fault

/-- Makes the first of several directories, each of which is in the next one, and those around it
that are missing. Directories that were made stay when one inside them cannot be. -/
def createInnermost : List String → m (Except IoFault Unit)
  | [] => return .ok ()
  | path :: outer => do
    match ← Host.createDirectory path with
    | .ok () => return .ok ()
    | .error .notFound =>
      match ← createInnermost outer with
      | .error fault => return .error fault
      | .ok () =>
        match ← Host.createDirectory path with
        | .ok () => return .ok ()
        | .error fault => acceptDirectory path fault
    | .error fault => acceptDirectory path fault

/-- Makes a directory and those around it that are missing. -/
def createDirectories (path : String) : m (Except IoFault Unit) :=
  createInnermost (FilePath.ancestors path)

end

end AbiRecovery
