import AbiRecovery.Json.Field
import AbiRecovery.Json.Shape
import AbiRecovery.Tree.Item

/-!
# Imports

The paths that a program imports, in the order in which they first appear, and which of the
well-known ones are among them. A rename counts under the name it renames, and a glob under the path
in front of it. A path of a single name is no import.
-/

namespace AbiRecovery

open Json AbiRecovery.Tree

/-- The imported paths, and the well-known ones among them. -/
structure Imports where
  hasInstruction : Bool := false
  hasAccountMeta : Bool := false
  hasProgramError : Bool := false
  hasPubkey : Bool := false
  paths : List String := []
deriving DecidableEq

namespace Imports

/-- The path of the instruction type. -/
def instructionPath : String := "solana_program::instruction::Instruction"

/-- The path of the account reference type. -/
def accountMetaPath : String := "solana_program::instruction::AccountMeta"

/-- The path of the error type. -/
def programErrorPath : String := "solana_program::program_error::ProgramError"

/-- The path of the key type. -/
def pubkeyPath : String := "solana_program::pubkey::Pubkey"

mutual

/-- The paths of an import tree below the path `base`. -/
def pathsOf (base : List String) : UseTree → List (List String)
  | .path ident tree => pathsOf (base ++ ident.name?.toList) tree
  | .name ident => [base ++ ident.name?.toList]
  | .rename ident _ => [base ++ ident.name?.toList]
  | .glob => [base]
  | .group items => pathsOfAll base items
  | .other => [base]

/-- The paths of several import trees below the path `base`. -/
def pathsOfAll (base : List String) : List UseTree → List (List String)
  | [] => []
  | tree :: trees => pathsOf base tree ++ pathsOfAll base trees

end

/-- Adds a path, unless it is a single name or is there already. -/
def record (paths : List String) (names : List String) : List String :=
  if names.length < 2 ∨ "::".intercalate names ∈ paths then paths
  else paths ++ ["::".intercalate names]

/-- The imports with the given paths. -/
def ofPaths (paths : List String) : Imports :=
  { hasInstruction := instructionPath ∈ paths
    hasAccountMeta := accountMetaPath ∈ paths
    hasProgramError := programErrorPath ∈ paths
    hasPubkey := pubkeyPath ∈ paths
    paths := paths }

/-- The imports of a sequence of import trees. -/
def ofTrees (trees : List UseTree) : Imports :=
  ofPaths ((pathsOfAll [] trees).foldl record [])

/-- The JSON value of imports. -/
def toJson (imports : Imports) : Json :=
  .obj
    [("hasInstruction", .bool imports.hasInstruction),
      ("hasAccountMeta", .bool imports.hasAccountMeta),
      ("hasProgramError", .bool imports.hasProgramError),
      ("hasPubkey", .bool imports.hasPubkey),
      ("paths", texts imports.paths)]

/-- The shape of imports. -/
def shape : Shape :=
  .record "ImportFlags"
    [("hasInstruction", .required, .flag), ("hasAccountMeta", .required, .flag),
      ("hasProgramError", .required, .flag), ("hasPubkey", .required, .flag),
      ("paths", .required, .list .text)]

/-- The imports that a value of the shape stands for. -/
def ofJson (value : Json) : Imports :=
  { hasInstruction := (value.field "hasInstruction").toFlag
    hasAccountMeta := (value.field "hasAccountMeta").toFlag
    hasProgramError := (value.field "hasProgramError").toFlag
    hasPubkey := (value.field "hasPubkey").toFlag
    paths := (value.field "paths").toItems.map Json.toText }

end Imports

end AbiRecovery
