import AbiRecovery.Program.AccountRole

/-!
# Instructions of an ABI
-/

namespace AbiRecovery

open Json

/-- A field of an instruction's data. Its type is absent when it is not known. -/
structure InputField where
  name : String
  type : Option String
deriving DecidableEq

/-- An instruction: its opcode, the fields of its data in order, and the roles of its accounts in
order. The accounts are absent when they are not known. -/
structure Instruction where
  code : UInt64
  name : String
  inputs : List InputField
  accounts : Option (List AccountRole)
deriving DecidableEq

namespace InputField

/-- The JSON value of a field. -/
def toJson (field : InputField) : Json :=
  .obj ([("name", .str field.name)] ++ optionalMember "type" (field.type.map .str))

/-- The shape of a field. -/
def shape : Shape :=
  .record "AbiField" [("name", .required, .text), ("type", .defaulted, .optional .text)]

/-- The field that a value of the shape stands for. -/
def ofJson (value : Json) : InputField :=
  ⟨(value.field "name").toText, (value.field "type").toText?⟩

end InputField

namespace Instruction

/-- The JSON value of an instruction. -/
def toJson (instruction : Instruction) : Json :=
  .obj
    ([("code", ofCode instruction.code), ("name", .str instruction.name),
      ("inputs", .arr (instruction.inputs.map InputField.toJson))] ++
      optionalMember "accounts"
        (instruction.accounts.map fun roles => .arr (roles.map AccountRole.toJson)))

/-- The shape of an instruction. -/
def shape : Shape :=
  .record "InstructionAbi"
    [("code", .required, .count), ("name", .required, .text),
      ("inputs", .required, .list InputField.shape),
      ("accounts", .defaulted, .optional (.list AccountRole.shape))]

/-- The instruction that a value of the shape stands for. -/
def ofJson (value : Json) : Instruction :=
  { code := (value.field "code").toCode
    name := (value.field "name").toText
    inputs := (value.field "inputs").toItems.map InputField.ofJson
    accounts := (value.field "accounts").toItems?.map (·.map AccountRole.ofJson) }

/-- Reads an instruction from a text. -/
def ofText (content : String) : Except Fault Instruction :=
  (shape.readText content).map ofJson

/-- The JSON value of a list of instructions. -/
def listToJson (instructions : List Instruction) : Json :=
  .arr (instructions.map toJson)

/-- Reads a list of instructions from a text. -/
def listOfText (content : String) : Except Fault (List Instruction) :=
  ((Shape.list shape).readText content).map fun value => value.toItems.map ofJson

end Instruction

end AbiRecovery
