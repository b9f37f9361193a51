import AbiRecovery.Program.StructDef
import AbiRecovery.Text.Segments

/-!
# Enums and the instruction enum

A program lists its instructions as the variants of an enum; the opcode of an instruction is the
position of its variant among those that have a name. `selectEnum` picks the enum: the only one, or
else the first that is named like an instruction enum, or else the first one.
-/

namespace AbiRecovery

open Json AbiRecovery.Tree

/-- A named field with its type. -/
structure InlineField where
  name : String
  type : TypePath
deriving DecidableEq

/-- A variant of an enum with the opcode that its position gives it. -/
structure EnumVariant where
  code : UInt64
  name : String
  /-- The type of the only field of a tuple variant. -/
  payload : Option String
  /-- The fields of a variant with named fields. -/
  inlineFields : Option (List InlineField)
deriving DecidableEq

/-- An enum. -/
structure EnumDef where
  name : String
  isPublic : Bool
  variants : List EnumVariant
deriving DecidableEq

/-- The word that names of instruction types have in them. -/
def instructionHint : String := "Instruction"

namespace InlineField

/-- A field with a name. -/
def ofField? (field : Field) : Option InlineField :=
  field.name?.map fun name => ⟨name, TypePath.ofType field.type⟩

/-- The JSON value of a field. -/
def toJson (field : InlineField) : Json :=
  .obj [("name", .str field.name), ("type", field.type.toJson)]

end InlineField

namespace EnumVariant

/-- The type that a variant with one unnamed field carries. -/
def payload? : Fields → Option String
  | .unnamed [field] => (TypePath.ofType field.type).leading?
  | _ => none

/-- The fields of a variant with named fields. -/
def inlineFields? : Fields → Option (List InlineField)
  | .named fields => some (fields.filterMap InlineField.ofField?)
  | _ => none

/-- The name and the fields of an entry that is a variant with a name. -/
def ofEntry? : EnumEntry → Option (String × Fields)
  | .variant ident fields => ident.name?.map fun name => (name, fields)
  | .other => none

/-- The variant at a position. -/
def ofNamed (position : Nat) (named : String × Fields) : EnumVariant :=
  { code := UInt64.ofNat position
    name := named.1
    payload := payload? named.2
    inlineFields := inlineFields? named.2 }

/-- The JSON value of a variant. -/
def toJson (variant : EnumVariant) : Json :=
  .obj
    ([("code", ofCode variant.code), ("name", .str variant.name)] ++
      optionalMember "payloadStructName" (variant.payload.map .str) ++
      optionalMember "inlineFields"
        (variant.inlineFields.map fun fields => .arr (fields.map InlineField.toJson)))

end EnumVariant

namespace EnumDef

/-- The variants of an enum, numbered in order. -/
def variantsOf (entries : List EnumEntry) : List EnumVariant :=
  (entries.filterMap EnumVariant.ofEntry?).mapIdx EnumVariant.ofNamed

/-- The definition of an enum that has a name. -/
def ofItem? (item : EnumItem) : Option EnumDef :=
  item.ident.name?.map fun name => ⟨name, item.visibility.isPublic, variantsOf item.entries⟩

/-- Whether an enum is named like an instruction enum. -/
def isHinted (enum : EnumDef) : Bool :=
  Text.hasInfix instructionHint enum.name

/-- The JSON value of an enum. -/
def toJson (enum : EnumDef) : Json :=
  .obj
    [("name", .str enum.name), ("isPublic", .bool enum.isPublic),
      ("variants", .arr (enum.variants.map EnumVariant.toJson))]

end EnumDef

/-- Why an enum was selected. -/
inductive EnumSelection where
  | sole
  | nameHint
  | firstDeclared
deriving DecidableEq

/-- The word for a selection. -/
def EnumSelection.word : EnumSelection → String
  | sole => "sole"
  | nameHint => "nameHint"
  | firstDeclared => "firstDeclared"

/-- The instruction enum of a program. -/
def selectEnum : List EnumDef → Option (EnumDef × EnumSelection)
  | [] => none
  | [only] => some (only, .sole)
  | first :: rest =>
    match (first :: rest).find? EnumDef.isHinted with
    | some hinted => some (hinted, .nameHint)
    | none => some (first, .firstDeclared)

end AbiRecovery
