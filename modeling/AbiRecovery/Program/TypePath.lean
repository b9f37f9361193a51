import AbiRecovery.Json.Field
import AbiRecovery.Tree.Query

/-!
# Flattened types

A `TypePath` is a type as a list of names from the outside in. `TypePath.ofType` looks through
borrows and parentheses and follows the first generic argument one level; a fixed-size array is the
single token `elem;len`. `TypePath.canonical?` is the name that a field of the type has in an ABI.
-/

namespace AbiRecovery

open AbiRecovery.Tree

/-- A type as names from the outside in. It is empty when the type could not be resolved. -/
structure TypePath where
  tokens : List String := []
deriving DecidableEq

/-- The generic wrappers that do not name a field's type. -/
def wrapperTypes : List String := ["Vec", "Option", "Box", "COption"]

/-- Integer wrappers and the primitive types they stand for. -/
def typeAliases : List (String × String) :=
  [("NonZeroU8", "u8"), ("NonZeroU16", "u16"), ("NonZeroU32", "u32"), ("NonZeroU64", "u64"),
    ("NonZeroU128", "u128"), ("NonZeroUsize", "usize"), ("NonZeroI8", "i8"), ("NonZeroI16", "i16"),
    ("NonZeroI32", "i32"), ("NonZeroI64", "i64"), ("NonZeroI128", "i128"),
    ("NonZeroIsize", "isize")]

/-- The primitive type that an alias stands for; any other name stands for itself. -/
def resolveAlias (name : String) : String :=
  (typeAliases.lookup name).getD name

/-- A type without the borrows and parentheses around it. -/
def Tree.TypeRef.peel : TypeRef → TypeRef
  | .reference elem => elem.peel
  | .paren elem => elem.peel
  | type => type

namespace TypePath

/-- The name of an array's elements. -/
def elementName? (elem : TypeRef) : Option String :=
  match elem.peel with
  | .path path => path.leaf?
  | _ => none

/-- The length of an array: a number, or the name of a constant. -/
def lengthText? (len : Expr) : Option String :=
  match len.peel with
  | .lit lit => lit.intText?
  | .path path => path.leaf?
  | _ => none

/-- The token of a fixed-size array. -/
def arrayToken? (elem : TypeRef) (len : Expr) : Option String :=
  match elementName? elem, lengthText? len with
  | some name, some length => some (name ++ ";" ++ length)
  | _, _ => none

/-- The names of the first generic argument. -/
def argumentTokens (args : List TypeRef) : List String :=
  match args.head?.map TypeRef.peel with
  | some (.path path) => path.idents
  | _ => []

/-- The names of a path, up to its first generic arguments and with those of the first argument. -/
def segmentTokens : List PathSegment → List String
  | [] => []
  | segment :: segments =>
    segment.ident.name?.toList ++
      match segment.arguments with
      | .angleBracketed args => argumentTokens args
      | _ => segmentTokens segments

/-- Flattens a type. -/
def ofType : TypeRef → TypePath
  | .path path => ⟨segmentTokens path.segments⟩
  | .array elem len => ⟨(arrayToken? elem len).toList⟩
  | .reference elem => ofType elem
  | .paren elem => ofType elem
  | .other => ⟨[]⟩

/-- The outermost name. -/
def leading? (path : TypePath) : Option String :=
  path.tokens.head?

/-- Whether the type could not be resolved. -/
def isUnknown (path : TypePath) : Bool :=
  path.tokens.isEmpty

/-- The type as it is written. -/
def render (path : TypePath) : String :=
  "::".intercalate path.tokens

/-- The outermost name that is no wrapper, or else the innermost name, as a primitive type if it is
an alias of one. -/
def canonical? (path : TypePath) : Option String :=
  ((path.tokens.find? fun token => !wrapperTypes.contains token).or path.tokens.getLast?).map
    resolveAlias

/-- The JSON value of a flattened type. -/
def toJson (path : TypePath) : Json :=
  Json.texts path.tokens

/-- The flattened type that a JSON value stands for. -/
def ofJson (value : Json) : TypePath :=
  ⟨value.toItems.map Json.toText⟩

end TypePath

end AbiRecovery
