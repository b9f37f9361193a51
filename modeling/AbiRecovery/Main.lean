import AbiRecovery.Command.Run
import Std.Time.DateTime.Timestamp

/-!
# The program

The command line on the machine's files. Reports go to the standard error stream with the seconds
since 1970 in front of them.
-/

namespace AbiRecovery

/-- The file fault of an error of the operating system. -/
def IoFault.ofError : IO.Error → IoFault
  | .noFileOrDirectory _ _ _ => notFound
  | .alreadyExists _ _ _ => alreadyExists
  | .inappropriateType _ 20 _ => notDirectory
  | .inappropriateType _ 21 _ => isDirectory
  | .invalidArgument _ 36 _ => nameTooLong
  | .inappropriateType _ code details => other (details ++ " (os error " ++ toString code ++ ")")
  | .permissionDenied _ code details => other (details ++ " (os error " ++ toString code ++ ")")
  | error => other (toString error)

/-- The result of an action on files. -/
def attempt {α : Type} (action : IO α) : IO (Except IoFault α) := do
  match ← action.toBaseIO with
  | .ok value => return .ok value
  | .error error => return .error (IoFault.ofError error)

instance : Host IO where
  workingDirectory := attempt do return (← IO.currentDir).toString
  pathExists path := do return (← attempt (IO.FS.realPath path)).toBool
  readText path := do
    match ← attempt do (← IO.FS.Handle.mk path .read).readBinToEnd with
    | .error fault => return .error fault
    | .ok content =>
      match String.fromUTF8? content with
      | some text => return .ok text
      | none => return .error .notText
  isDirectory path := do
    match ← attempt (IO.FS.realPath path) with
    | .ok real => real.isDir
    | .error _ => return false
  createDirectory path := attempt (IO.FS.createDir path)
  createFile path := attempt do discard (IO.FS.Handle.mk path .write)
  writeText path text := attempt (IO.FS.writeFile path text)
  log event := do
    let now ← Std.Time.Timestamp.now
    IO.eprintln (toString now.toSecondsSinceUnixEpoch.val ++ " " ++ event.line)
  print line := IO.println line

end AbiRecovery

open AbiRecovery in
/-- Runs the command line with the given words. -/
def main (words : List String) : IO UInt32 := do
  match ← (runCommand "solana-abi-extractor" words : ExceptT Failure IO Unit).run with
  | .ok () => return 0
  | .error failure =>
    for line in failure.report do
      IO.eprintln line
    return 1
