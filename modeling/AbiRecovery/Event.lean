/-!
# Log lines

What is reported while a program is analysed and its ABI is stored.
-/

namespace AbiRecovery

/-- How serious a report is. -/
inductive Level where
  | info
  | warn
  | error
deriving DecidableEq

/-- The word for a level. -/
def Level.word : Level → String
  | info => "INFO"
  | warn => "WARN"
  | error => "ERROR"

/-- A report. -/
inductive Event where
  /-- A struct replaces an earlier one of the same name. -/
  | structReplaced (name : String)
  /-- The instruction enum was found by its name. -/
  | enumSelected (name : String)
  /-- No enum has the name of an instruction enum. -/
  | enumAssumed (count : Nat) (name : String)
  /-- An opcode is not an integer. -/
  | literalSkipped (literal : String)
  /-- The analysis is done. -/
  | recovered (instructions : Nat) (origin : String) (structs enums functions : Nat)
  /-- A merge left the instructions as they were. -/
  | unchanged (name : String)
  /-- A merge changed the instructions. -/
  | updated (name : String) (instructions : Nat)
  /-- A tree is about to be read. -/
  | reading (path : String)
  /-- A document is about to be saved. -/
  | saving (path : String)
  /-- A directory is about to be made. -/
  | creatingDirectory (path : String)
  /-- A file could not be made. -/
  | createFailed (path reason : String)
  /-- A document was saved. -/
  | wrote (bytes : Nat) (path : String)
deriving DecidableEq

namespace Event

/-- The level of a report. -/
def level : Event → Level
  | structReplaced _ | enumAssumed _ _ | literalSkipped _ => .warn
  | createFailed _ _ => .error
  | _ => .info

/-- The wording of a report. -/
def message : Event → String
  | structReplaced name =>
    "Struct " ++ name ++ " is defined more than once, keeping the last definition"
  | enumSelected name => "Selected " ++ name ++ " as the instruction enum"
  | enumAssumed count name =>
    toString count ++ " enums and none named like an instruction enum, " ++
      "falling back to the first declared: " ++ name
  | literalSkipped literal => "Dispatch literal " ++ literal ++ " is not an integer, skipping"
  | recovered instructions origin structs enums functions =>
    "Recovered " ++ toString instructions ++ " instructions (" ++ origin ++ ") from " ++
      toString structs ++ " structs, " ++ toString enums ++ " enums, " ++
      toString functions ++ " functions"
  | unchanged name => "ABI for " ++ name ++ " is unchanged"
  | updated name instructions =>
    "ABI for " ++ name ++ " updated (" ++ toString instructions ++ " instructions)"
  | reading path => "Reading syntax tree from " ++ path
  | saving path => "Saving ABI to absolute path: " ++ path
  | creatingDirectory path => "Creating directory: " ++ path
  | createFailed path reason => "Failed to create file: " ++ path ++ " - Error: " ++ reason
  | wrote bytes path => "Wrote " ++ toString bytes ++ " bytes to " ++ path

/-- The line of a report. -/
def line (event : Event) : String :=
  "[" ++ event.level.word ++ "] - " ++ event.message

end Event

end AbiRecovery
