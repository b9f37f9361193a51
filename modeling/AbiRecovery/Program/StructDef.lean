import AbiRecovery.Json.Shape
import AbiRecovery.Program.TypePath
import AbiRecovery.Tree.Item

/-!
# Struct definitions
-/

namespace AbiRecovery

open Json AbiRecovery.Tree

/-- A field of a struct. -/
structure FieldDef where
  name : String
  isPublic : Bool
  type : TypePath
deriving DecidableEq

/-- A struct with its named fields. -/
structure StructDef where
  name : String
  isPublic : Bool
  fields : List FieldDef
deriving DecidableEq

/-- The name of a field, if it has one that could be read. -/
def Tree.Field.name? (field : Field) : Option String :=
  field.ident.bind Ident.name?

namespace FieldDef

/-- A field with a name. -/
def ofField? (field : Field) : Option FieldDef :=
  field.name?.map fun name => ⟨name, field.visibility.isPublic, TypePath.ofType field.type⟩

/-- The JSON value of a field. -/
def toJson (field : FieldDef) : Json :=
  .obj [("name", .str field.name), ("isPublic", .bool field.isPublic), ("type", field.type.toJson)]

/-- The shape of a field. -/
def shape : Shape :=
  .record "FieldDef"
    [("name", .required, .text), ("isPublic", .required, .flag), ("type", .required, .list .text)]

/-- The field that a value of the shape stands for. -/
def ofJson (value : Json) : FieldDef :=
  { name := (value.field "name").toText
    isPublic := (value.field "isPublic").toFlag
    type := TypePath.ofJson (value.field "type") }

end FieldDef

namespace StructDef

/-- The definition of a struct that has a name. Only named fields count. -/
def ofItem? (item : StructItem) : Option StructDef :=
  item.ident.name?.map fun name =>
    { name := name
      isPublic := item.visibility.isPublic
      fields :=
        match item.fields with
        | .named fields => fields.filterMap FieldDef.ofField?
        | _ => [] }

/-- The JSON value of a struct. -/
def toJson (struct : StructDef) : Json :=
  .obj
    [("name", .str struct.name), ("isPublic", .bool struct.isPublic),
      ("fields", .arr (struct.fields.map FieldDef.toJson))]

/-- The shape of a struct. -/
def shape : Shape :=
  .record "StructDef"
    [("name", .required, .text), ("isPublic", .required, .flag),
      ("fields", .required, .list FieldDef.shape)]

/-- The struct that a value of the shape stands for. -/
def ofJson (value : Json) : StructDef :=
  { name := (value.field "name").toText
    isPublic := (value.field "isPublic").toFlag
    fields := (value.field "fields").toItems.map FieldDef.ofJson }

/-- Reads a struct from a text. -/
def ofText (content : String) : Except Fault StructDef :=
  (shape.readText content).map ofJson

end StructDef

end AbiRecovery
