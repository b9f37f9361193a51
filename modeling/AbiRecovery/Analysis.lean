import AbiRecovery.Abi.Assembly
import AbiRecovery.Event
import AbiRecovery.Program.Imports

/-!
# The analysis of a program

`Analysis.ofFile` recovers the instructions of a program from its source file. Each kind of item is
looked at on its own, so only the order within a kind matters. `Analysis.eventsOf` lists what is
reported on the way.
-/

namespace AbiRecovery

open Json AbiRecovery.Tree

/-- A note about an ambiguous or incomplete result. -/
inductive Diagnostic where
  | structRepeated (name : String)
  | enumAssumed (name : String)
  | noSource
  | unmatched (count : Nat)
deriving DecidableEq

/-- The wording of a note. -/
def Diagnostic.message : Diagnostic → String
  | structRepeated name =>
    "struct " ++ name ++ " is defined more than once, the last definition is used"
  | enumAssumed name =>
    "no enum is named like an instruction enum, used the first declared: " ++ name
  | noSource => "no instruction enum or unpack dispatch found"
  | unmatched count => toString count ++ " instructions have no matching builder function"

/-- What was recovered from a program. -/
structure Analysis where
  instructions : List Instruction
  source : InstructionSource
  structs : Catalog
  enums : List EnumDef
  dispatch : List DispatchEntry
  builders : List Builder
  imports : Imports
  diagnostics : List Diagnostic

/-- The notes about the source of the opcodes. -/
def Diagnostic.ofSource : InstructionSource → List Diagnostic
  | .enum name .firstDeclared => [.enumAssumed name]
  | .unknown => [.noSource]
  | _ => []

/-- The notes about an analysis: repeated structs, then the source, then the instructions without
accounts. -/
def Diagnostic.all (structs : Catalog) (source : InstructionSource)
    (instructions : List Instruction) : List Diagnostic :=
  let unmatched := instructions.countP fun instruction => instruction.accounts.isNone
  structs.duplicates.map .structRepeated ++ Diagnostic.ofSource source ++
    (if unmatched = 0 then [] else [.unmatched unmatched])

/-! ### The analysis -/

namespace Analysis

/-- The structs of a file, in order. -/
def structDefs (file : File) : List StructDef :=
  file.structs.filterMap StructDef.ofItem?

/-- Recovers the instructions of a program. -/
def ofFile (file : File) : Analysis :=
  let structs := Catalog.ofStructs (structDefs file)
  let enums := file.enums.filterMap EnumDef.ofItem?
  let dispatch := Dispatch.ofImpls file.impls
  let builders := file.functions.filterMap Builder.ofFunction?
  let instructions := Assembly.instructions structs enums dispatch builders
  let source := Assembly.source enums dispatch
  { instructions := instructions
    source := source
    structs := structs
    enums := enums
    dispatch := dispatch
    builders := builders
    imports := Imports.ofTrees file.uses
    diagnostics := Diagnostic.all structs source instructions }

/-- What is reported about the source of the opcodes. -/
def sourceEvents (analysis : Analysis) : List Event :=
  match analysis.source with
  | .enum _ .sole => []
  | .enum name .nameHint => [.enumSelected name]
  | .enum name .firstDeclared => [.enumAssumed analysis.enums.length name]
  | .legacy =>
    (analysis.dispatch.filter fun entry => entry.value?.isNone).map fun entry =>
      .literalSkipped entry.literal
  | .unknown => []

/-- What is reported when the analysis is done. -/
def summary (analysis : Analysis) : Event :=
  .recovered analysis.instructions.length analysis.source.origin analysis.structs.size
    analysis.enums.length analysis.builders.length

/-- What is reported while a file is analysed. -/
def eventsOf (file : File) : List Event :=
  let analysis := ofFile file
  Catalog.eventsFrom { } (structDefs file) ++ analysis.sourceEvents ++ [analysis.summary]

/-- The JSON value of an analysis. -/
def toJson (analysis : Analysis) : Json :=
  .obj
    [("instructions", Instruction.listToJson analysis.instructions),
      ("source", analysis.source.toJson),
      ("structs", analysis.structs.toJson),
      ("enums", .arr (analysis.enums.map EnumDef.toJson)),
      ("legacyOpcodes", .arr (analysis.dispatch.map DispatchEntry.toJson)),
      ("builders", .arr (analysis.builders.map Builder.toJson)),
      ("imports", analysis.imports.toJson),
      ("diagnostics", texts (analysis.diagnostics.map Diagnostic.message))]

end Analysis

end AbiRecovery
