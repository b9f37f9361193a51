import AbiRecovery.Json.Fault

/-!
# Shapes of documents

A `Shape` says what a document has to look like. `Shape.read` walks a draft in the order of its text
and answers the document's value, or the first fault that the walk meets. A record may be given as
an object or as a list of its fields in order. Keys that a record does not have are skipped,
whatever their values hold.

The value that `read` answers has of each record exactly the known fields that were given, as an
object in the order of the shape; so what is read back from it never depends on the form of the
text.
-/

namespace AbiRecovery.Json

/-- When a field of a record may be left out. -/
inductive Presence where
  /-- Never. -/
  | required
  /-- In an object, but not in a list. -/
  | omissible
  /-- Always. -/
  | defaulted
deriving DecidableEq

/-- What a document has to look like. -/
inductive Shape where
  /-- Any value. -/
  | any
  /-- A string. -/
  | text
  /-- A truth value. -/
  | flag
  /-- A natural number of 64 bits. -/
  | count
  /-- The null value, or a value of a shape. -/
  | optional (shape : Shape)
  /-- A list of values of a shape. -/
  | list (item : Shape)
  /-- A record with the given name and fields. -/
  | record (name : String) (fields : List (String × Presence × Shape))

namespace Shape

/-- A shape without the permission to be null. -/
def core : Shape → Shape
  | optional shape => core shape
  | shape => shape

/-- Whether the null value has a shape. -/
def nullable : Shape → Bool
  | any => true
  | optional _ => true
  | _ => false

/-- How messages name what a shape expects. -/
def describe : Shape → String
  | any => "any value"
  | text => "a string"
  | flag => "a boolean"
  | count => "u64"
  | optional shape => describe shape
  | list _ => "a sequence"
  | record name _ => "struct " ++ name

/-- A number of elements in words. -/
def elements (count : Nat) : String :=
  toString count ++ (if count = 1 then " element" else " elements")

/-- The fields of a record, in its order, out of those that were given in an object. -/
def assemble (given : List (String × Json)) :
    List (String × Presence × Shape) → Except Fault (List (String × Json))
  | [] => .ok []
  | (key, presence, _) :: fields =>
    match given.lookup key with
    | some value => (assemble given fields).map ((key, value) :: ·)
    | none => if presence = .required then .error (.missing key) else assemble given fields

/-- The fields of a record that a list has no more items for. -/
def omitted (name : String) (arity index : Nat) :
    List (String × Presence × Shape) → Except Fault (List (String × Json))
  | [] => .ok []
  | (_, presence, _) :: fields =>
    if presence = .defaulted then omitted name arity (index + 1) fields
    else .error (.length index ("struct " ++ name ++ " with " ++ elements arity))

mutual

/-- The value of a draft that has the shape `shape`, with room for `room` containers inside each
other. -/
def read (room : Nat) (shape : Shape) : Draft → Except Fault Json
  | .null => if shape.nullable then .ok .null else .error (.mismatch .null shape.describe)
  | .bool value =>
    match shape.core with
    | any | flag => .ok (.bool value)
    | core => .error (.mismatch (.bool value) core.describe)
  | .num numeral =>
    match numeral.toNumber? with
    | none => .error .malformed
    | some value =>
      match shape.core, value with
      | any, value => .ok (.num value)
      | count, .int value =>
        if value < 0 then .error (.outOfRange value count.describe) else .ok (.num (.int value))
      | core, value => .error (.mismatch (.num value) core.describe)
  | .str content =>
    match content with
    | none => .error .malformed
    | some content =>
      match shape.core with
      | any | text => .ok (.str content)
      | core => .error (.mismatch (.str content) core.describe)
  | .arr items closed =>
    match shape.core with
    | any => ((Draft.arr items closed).value? room).elim (.error .malformed) .ok
    | list item =>
      if room = 0 then .error .malformed
      else (readItems (room - 1) item closed items).map .arr
    | record name fields =>
      if room = 0 then .error .malformed
      else (readPositions (room - 1) name fields.length closed 0 fields items).map .obj
    | core => .error (.mismatch .sequence core.describe)
  | .obj members closed =>
    match shape.core with
    | any => ((Draft.obj members closed).value? room).elim (.error .malformed) .ok
    | record _ fields =>
      if room = 0 then .error .malformed
      else (readMembers (room - 1) fields closed [] members).map .obj
    | core => .error (.mismatch .map core.describe)
  | .cut => .error .malformed

/-- The values of the items of a list. -/
def readItems (room : Nat) (shape : Shape) (closed : Bool) : List Draft → Except Fault (List Json)
  | [] => if closed then .ok [] else .error .malformed
  | item :: items =>
    match read room shape item with
    | .error fault => .error fault
    | .ok value => (readItems room shape closed items).map (value :: ·)

/-- The fields of a record that is given as a list, from the field number `index` on. -/
def readPositions (room : Nat) (name : String) (arity : Nat) (closed : Bool) (index : Nat)
    (fields : List (String × Presence × Shape)) :
    List Draft → Except Fault (List (String × Json))
  | [] => if closed then omitted name arity index fields else .error .malformed
  | item :: items =>
    match fields with
    | [] => .error .malformed
    | (key, _, shape) :: fields =>
      match read room shape item with
      | .error fault => .error fault
      | .ok value =>
        (readPositions room name arity closed (index + 1) fields items).map ((key, value) :: ·)

/-- The fields of a record that is given as an object; `given` holds those read so far. -/
def readMembers (room : Nat) (fields : List (String × Presence × Shape)) (closed : Bool)
    (given : List (String × Json)) :
    List (Option String × Draft) → Except Fault (List (String × Json))
  | [] => if closed then assemble given fields else .error .malformed
  | (none, _) :: _ => .error .malformed
  | (some key, member) :: members =>
    match fields.lookup key with
    | none => readMembers room fields closed given members
    | some (_, shape) =>
      if (given.lookup key).isSome then .error (.duplicate key)
      else
        match read room shape member with
        | .error fault => .error fault
        | .ok value => readMembers room fields closed ((key, value) :: given) members

end

/-- The value of a text that holds a document of the shape `shape` and nothing else. -/
def readText (shape : Shape) (content : String) : Except Fault Json :=
  let scan := Scan.ofText content
  match read maxDepth shape scan.root with
  | .error fault => .error fault
  | .ok value => if scan.ended then .ok value else .error .malformed

end Shape

end AbiRecovery.Json
