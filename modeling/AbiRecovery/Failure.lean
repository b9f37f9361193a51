import AbiRecovery.Json.Fault
import AbiRecovery.Text.Segments

/-!
# Failures

`AbiError` is a rejected document, or a file that cannot be read where a document should be.
`Failure` is any reason for which a run stops. Each has its wording in `message`, and in `causes`
what the wording leaves to a second line.
-/

namespace AbiRecovery

open Json

/-- Why a file cannot be used. -/
inductive IoFault where
  | notFound
  | alreadyExists
  | notDirectory
  | isDirectory
  /-- A name, or the path as a whole, has too many bytes. -/
  | nameTooLong
  /-- The path has a zero character in it. -/
  | zeroCharacter
  /-- The content is not text. -/
  | notText
  /-- Any other reason, in the words of the operating system. -/
  | other (reason : String)
deriving DecidableEq

/-- The wording of a file fault. -/
def IoFault.message : IoFault → String
  | notFound => "No such file or directory (os error 2)"
  | alreadyExists => "File exists (os error 17)"
  | notDirectory => "Not a directory (os error 20)"
  | isDirectory => "Is a directory (os error 21)"
  | nameTooLong => "File name too long (os error 36)"
  | zeroCharacter => "file name contained an unexpected NUL byte"
  | notText => "stream did not contain valid UTF-8"
  | other reason => reason

/-- Where an error happened. -/
structure ErrorContext where
  component : String
  operation : String
  details : Option String := none
deriving DecidableEq

/-- What an error is about. -/
inductive ErrorKind where
  | tree
  | serialization
  | document
deriving DecidableEq

/-- How the message of an error begins. -/
def ErrorKind.heading : ErrorKind → String
  | tree => "Syntax tree parse error: "
  | serialization => "Serialization error: "
  | document => "ABI document error: "

namespace ErrorContext

/-- The wording of a context. -/
def describe (context : ErrorContext) : String :=
  "In " ++ context.component ++ " while " ++ context.operation ++
    match context.details with
    | some details => " (" ++ details ++ ")"
    | none => ""

/-- Whether a word of lower-case letters stands in a text, whatever the case of the text. Only the
letters of ASCII are lowered: no other letter has one of them alone as its lower case, apart from
the Kelvin sign, whose letter is in none of the words that are looked for. -/
def mentions (word text : String) : Bool :=
  Text.hasInfixChars word.toList (text.toList.map Char.toLower)

/-- What an error in a context is about: a component of the tree, a serializing operation, or else a
document. -/
def kind (context : ErrorContext) : ErrorKind :=
  if mentions "tree" context.component then .tree
  else if mentions "serialize" context.operation then .serialization
  else .document

end ErrorContext

/-- Why a document is rejected. -/
inductive AbiError where
  | inContext (context : ErrorContext) (cause : String)
  | io (fault : IoFault)
deriving DecidableEq

namespace AbiError

/-- The wording of an error. -/
def message : AbiError → String
  | inContext context cause => context.kind.heading ++ context.describe ++ ": " ++ cause
  | io fault => "I/O error: " ++ fault.message

/-- The causes of an error. -/
def causes : AbiError → List String
  | inContext _ _ => []
  | io fault => [fault.message]

/-- The error of a tree that is rejected. -/
def ofTreeFault (fault : Fault) : AbiError :=
  inContext { component := "tree_loader", operation := "parse_tree" } fault.message

/-- The error of a stored document that is rejected. -/
def ofStoredFault (path : String) (fault : Fault) : AbiError :=
  inContext { component := "abi_generator", operation := "load_abi", details := some path }
    fault.message

end AbiError

/-- Why a run stops. -/
inductive Failure where
  | abi (error : AbiError)
  | unreadable (fault : IoFault)
  | readTree (path : String) (fault : IoFault)
  | workingDirectory (fault : IoFault)
  | createDirectory (path : String) (fault : IoFault)
  | createFile (path : String) (fault : IoFault)
  | writeFile (path : String) (fault : IoFault)
deriving DecidableEq

namespace Failure

/-- The wording of a failure. -/
def message : Failure → String
  | abi error => error.message
  | unreadable fault => fault.message
  | readTree path _ => "Failed to read syntax tree: " ++ path
  | workingDirectory fault => fault.message
  | createDirectory path _ => "Failed to create directory: " ++ path
  | createFile path fault => "Failed to create file: " ++ path ++ " - Error: " ++ fault.message
  | writeFile path _ => "Failed to write to file: " ++ path

/-- The causes of a failure. -/
def causes : Failure → List String
  | abi error => error.causes
  | unreadable _ => []
  | readTree _ fault => [fault.message]
  | workingDirectory _ => []
  | createDirectory _ fault => [fault.message]
  | createFile _ _ => []
  | writeFile _ fault => [fault.message]

/-- The lines that report a failure; no failure has more than one cause. -/
def report (failure : Failure) : List String :=
  ("Error: " ++ failure.message) ::
    match failure.causes with
    | [] => []
    | causes => ["", "Caused by:"] ++ causes.map ("    " ++ ·)

end Failure

end AbiRecovery
