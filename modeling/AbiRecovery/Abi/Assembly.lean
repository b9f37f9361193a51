import AbiRecovery.Abi.Instruction
import AbiRecovery.Program.Builder
import AbiRecovery.Program.Catalog
import AbiRecovery.Program.Dispatch

/-!
# Assembling instructions

The opcodes of a program come from its instruction enum, or else from a dispatch. The inputs of an
instruction are the fields of the struct that its opcode carries, or those of its variant; its
accounts are those of the first function that builds it.
-/

namespace AbiRecovery

open Json

/-- Where the opcodes of a program come from. -/
inductive InstructionSource where
  /-- The variants of an enum. -/
  | enum (name : String) (selection : EnumSelection)
  /-- A hand-written dispatch. -/
  | legacy
  /-- Neither was found. -/
  | unknown
deriving DecidableEq

namespace InstructionSource

/-- The word for a source. -/
def origin : InstructionSource → String
  | enum _ _ => "enum"
  | legacy => "legacy"
  | unknown => "unknown"

/-- The name of the instruction enum. -/
def enumName? : InstructionSource → Option String
  | enum name _ => some name
  | _ => none

/-- The JSON value of a source. -/
def toJson : InstructionSource → Json
  | enum name selection =>
    .obj [("kind", .str "enum"), ("name", .str name), ("selection", .str selection.word)]
  | legacy => .obj [("kind", .str "legacy")]
  | unknown => .obj [("kind", .str "unknown")]

end InstructionSource

namespace Assembly

/-- The inputs that the fields of a struct give. -/
def structInputs (structs : Catalog) (payload : String) : List InputField :=
  match structs.get? payload with
  | some struct => struct.fields.map fun field => ⟨field.name, field.type.canonical?⟩
  | none => []

/-- The inputs of a variant. -/
def variantInputs (structs : Catalog) (variant : EnumVariant) : List InputField :=
  match variant.payload with
  | some payload => structInputs structs payload
  | none => (variant.inlineFields.getD []).map fun field => ⟨field.name, field.type.canonical?⟩

/-- The accounts of the first builder with a property. -/
def accounts? (builders : List Builder) (isBuilder : Builder → Bool) :
    Option (List AccountRole) :=
  (builders.find? isBuilder).bind Builder.accounts

/-- The instruction of a variant. -/
def variantInstruction (structs : Catalog) (builders : List Builder) (enumName : String)
    (variant : EnumVariant) : Instruction :=
  { code := variant.code
    name := variant.name
    inputs := variantInputs structs variant
    accounts := accounts? builders fun builder => builder.produces enumName variant.name }

/-- The instruction of an entry of a dispatch, if its literal is an integer. -/
def entryInstruction? (structs : Catalog) (builders : List Builder) (entry : DispatchEntry) :
    Option Instruction :=
  entry.value?.map fun code =>
    { code := code
      name := entry.payload.getD ("instruction_" ++ toString code.toNat)
      inputs := entry.payload.elim [] (structInputs structs)
      accounts :=
        entry.payload.bind fun payload =>
          accounts? builders fun builder => builder.producesLeaf payload }

/-- The source of the opcodes. -/
def source (enums : List EnumDef) (dispatch : List DispatchEntry) : InstructionSource :=
  match selectEnum enums with
  | some (enum, selection) => .enum enum.name selection
  | none => if dispatch = [] then .unknown else .legacy

/-- The instructions of a program. -/
def instructions (structs : Catalog) (enums : List EnumDef) (dispatch : List DispatchEntry)
    (builders : List Builder) : List Instruction :=
  match selectEnum enums with
  | some (enum, _) => enum.variants.map (variantInstruction structs builders enum.name)
  | none => dispatch.filterMap (entryInstruction? structs builders)

end Assembly

end AbiRecovery
