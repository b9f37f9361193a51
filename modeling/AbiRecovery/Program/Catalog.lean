import AbiRecovery.Event
import AbiRecovery.Program.StructDef

/-!
# The catalog of structs

The structs of a program in the order in which their names first appear. A repeated name replaces
the earlier definition in its place and is listed as a duplicate.
-/

namespace AbiRecovery

open Json

/-- Structs by name. -/
structure Catalog where
  /-- The definitions, in the order of the first appearance of their names. -/
  structs : List StructDef := []
  /-- The position of each name. -/
  index : List (String × Nat) := []
  /-- The names that were defined more than once. -/
  duplicates : List String := []

namespace Catalog

/-- The position of a name. -/
def position? (catalog : Catalog) (name : String) : Option Nat :=
  catalog.index.lookup name

/-- The definition of a name. -/
def get? (catalog : Catalog) (name : String) : Option StructDef :=
  (catalog.position? name).bind fun position => catalog.structs[position]?

/-- Whether a name has a definition. -/
def contains (catalog : Catalog) (name : String) : Bool :=
  (catalog.position? name).isSome

/-- Adds a struct, in the place of any earlier one of the same name. -/
def insert (catalog : Catalog) (struct : StructDef) : Catalog :=
  match catalog.position? struct.name with
  | some position =>
    { catalog with
      structs := catalog.structs.set position struct
      duplicates :=
        if struct.name ∈ catalog.duplicates then catalog.duplicates
        else catalog.duplicates ++ [struct.name] }
  | none =>
    { catalog with
      structs := catalog.structs ++ [struct]
      index := catalog.index ++ [(struct.name, catalog.structs.length)] }

/-- What is reported when a struct is added. -/
def insertEvents (catalog : Catalog) (struct : StructDef) : List Event :=
  if catalog.contains struct.name then [.structReplaced struct.name] else []

/-- What is reported when structs are added one after the other. -/
def eventsFrom (catalog : Catalog) : List StructDef → List Event
  | [] => []
  | struct :: structs => catalog.insertEvents struct ++ eventsFrom (catalog.insert struct) structs

/-- The catalog of a sequence of structs. -/
def ofStructs (structs : List StructDef) : Catalog :=
  structs.foldl insert { }

/-- The number of names. -/
def size (catalog : Catalog) : Nat :=
  catalog.structs.length

/-- The JSON value of a catalog. -/
def toJson (catalog : Catalog) : Json :=
  .obj
    ([("structs", .arr (catalog.structs.map StructDef.toJson))] ++
      optionalMember "duplicates"
        (if catalog.duplicates = [] then none else some (texts catalog.duplicates)))

end Catalog

end AbiRecovery
