import AbiRecovery.Json.Value

/-!
# Fields of records

Building the object of a record, and taking apart a value that is known to have the shape of a
record. A field that is absent reads as null, and a value of another kind as the empty value of the
kind that is asked for.
-/

namespace AbiRecovery.Json

/-- The member of a field that is left out when it is absent. -/
def optionalMember (key : String) : Option Json → List (String × Json)
  | some value => [(key, value)]
  | none => []

/-- A list of strings. -/
def texts (values : List String) : Json :=
  arr (values.map str)

/-- A natural number of 64 bits. -/
def ofCode (code : UInt64) : Json :=
  num (.int code.toNat)

/-- A field of a record. -/
def field (key : String) (value : Json) : Json :=
  (value.get? key).getD null

/-- The text of a string. -/
def toText : Json → String
  | str text => text
  | _ => ""

/-- The text of a string, if there is one. -/
def toText? : Json → Option String
  | str text => some text
  | _ => none

/-- A truth value. -/
def toFlag : Json → Bool
  | bool value => value
  | _ => false

/-- A natural number of 64 bits. -/
def toCode : Json → UInt64
  | num (.int value) => UInt64.ofNat value.toNat
  | _ => 0

/-- The items of a list. -/
def toItems : Json → List Json
  | arr items => items
  | _ => []

/-- The items of a list, if there is one. -/
def toItems? : Json → Option (List Json)
  | arr items => some items
  | _ => none

end AbiRecovery.Json
