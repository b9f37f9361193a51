import AbiRecovery.Tree.Node

/-!
# Items

The items of a source file: imports, structs, enums, blocks of methods, and functions. `File.uses`
and its companions list the items of one kind in the order of the file.
-/

namespace AbiRecovery.Tree

/-- The tree of an import. -/
inductive UseTree where
  | path (ident : Ident) (tree : UseTree)
  | name (ident : Ident)
  | rename (ident : Ident) (newName : Ident)
  | glob
  | group (items : List UseTree)
  | other

instance : Inhabited UseTree := ⟨.other⟩

/-- A field of a struct or of an enum variant. -/
structure Field where
  visibility : Visibility
  ident : Option Ident
  type : TypeRef

instance : Inhabited Field := ⟨⟨default, none, default⟩⟩

/-- The fields of a struct or of an enum variant. -/
inductive Fields where
  | named (fields : List Field)
  | unnamed (fields : List Field)
  | unit
  | other

instance : Inhabited Fields := ⟨.unit⟩

/-- A struct. -/
structure StructItem where
  visibility : Visibility
  ident : Ident
  fields : Fields

/-- An entry in the body of an enum. -/
inductive EnumEntry where
  | variant (ident : Ident) (fields : Fields)
  | other

instance : Inhabited EnumEntry := ⟨.other⟩

/-- An enum. -/
structure EnumItem where
  visibility : Visibility
  ident : Ident
  entries : List EnumEntry

/-- A parameter of a function. -/
inductive Param where
  | typed (pat : Pat) (type : TypeRef)
  | receiver
  | other

instance : Inhabited Param := ⟨.other⟩

/-- The name and the parameters of a function. -/
structure Signature where
  ident : Ident
  inputs : List Param

instance : Inhabited Signature := ⟨⟨default, []⟩⟩

/-- An entry in the body of a block of methods. -/
inductive ImplEntry where
  | method (signature : Signature) (block : Block)
  | other

instance : Inhabited ImplEntry := ⟨.other⟩

/-- A block of methods of a type. -/
structure ImplItem where
  selfType : TypeRef
  entries : List ImplEntry

/-- A function. -/
structure FunctionItem where
  visibility : Visibility
  signature : Signature
  block : Block

/-- An item of a source file. -/
inductive Item where
  | use (tree : UseTree)
  | struct (item : StructItem)
  | enum (item : EnumItem)
  | impl (item : ImplItem)
  | function (item : FunctionItem)
  | other

instance : Inhabited Item := ⟨.other⟩

/-- A source file. -/
structure File where
  items : List Item

namespace File

/-- The imports of a file. -/
def uses (file : File) : List UseTree :=
  file.items.filterMap fun
    | .use tree => some tree
    | _ => none

/-- The structs of a file. -/
def structs (file : File) : List StructItem :=
  file.items.filterMap fun
    | .struct item => some item
    | _ => none

/-- The enums of a file. -/
def enums (file : File) : List EnumItem :=
  file.items.filterMap fun
    | .enum item => some item
    | _ => none

/-- The blocks of methods of a file. -/
def impls (file : File) : List ImplItem :=
  file.items.filterMap fun
    | .impl item => some item
    | _ => none

/-- The functions of a file. -/
def functions (file : File) : List FunctionItem :=
  file.items.filterMap fun
    | .function item => some item
    | _ => none

end File

end AbiRecovery.Tree
