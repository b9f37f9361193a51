import AbiRecovery.Json.Node
import AbiRecovery.Json.Shape

/-!
# A node as a whole document

A text may hold a single node of a family with several variants. Its tag is looked at where the text
has it; all other fields are read as they come, and only then are they checked against the variant:
an object must not give a field of the variant twice, and a list must not have more items than the
variant has fields.
-/

namespace AbiRecovery.Json

/-- A family of nodes: its name in messages, and the keys that each variant has. -/
structure Family where
  name : String
  layout : String → List String

/-- The tag that a draft holds. -/
def Draft.tag (draft : Draft) : Except Fault String :=
  match draft with
  | .str (some tag) => .ok tag
  | draft => .error (draft.mismatch "variant identifier")

/-- The tag of an object and its other members, in the order of the text. -/
def readTagged (room : Nat) (closed : Bool) (tag : Option String) :
    List (Option String × Draft) → Except Fault (Option String × List (String × Json))
  | [] => if closed then .ok (tag, []) else .error .malformed
  | (none, _) :: _ => .error .malformed
  | (some key, member) :: members =>
    if key = tagKey then
      if tag.isSome then .error (.duplicate tagKey)
      else
        match member.tag with
        | .error fault => .error fault
        | .ok tag => readTagged room closed (some tag) members
    else
      match member.value? room with
      | none => .error .malformed
      | some value =>
        (readTagged room closed tag members).map fun (tag, others) => (tag, (key, value) :: others)

/-- The first of the keys `keys` that members give a second time. -/
def repeatedKey? (keys : List String) : List String → List String → Option String
  | _, [] => none
  | seen, key :: given =>
    if key ∈ keys ∧ key ∈ seen then some key else repeatedKey? keys (key :: seen) given

/-- The value of a draft that holds a node of a family. -/
def Family.read (family : Family) (room : Nat) (draft : Draft) : Except Fault Json :=
  match draft, room with
  | .obj _ _, 0 | .arr _ _, 0 => .error .malformed
  | .obj members closed, room + 1 =>
    match readTagged room closed none members with
    | .error fault => .error fault
    | .ok (none, _) => .error (.missing tagKey)
    | .ok (some tag, others) =>
      match repeatedKey? (family.layout tag) [] (others.map Prod.fst) with
      | some key => .error (.duplicate key)
      | none => .ok (.obj ((tagKey, .str tag) :: others))
  | .arr [] closed, _ + 1 => .error (if closed then .missing tagKey else .malformed)
  | .arr (first :: items) closed, room + 1 =>
    match first.tag with
    | .error fault => .error fault
    | .ok tag =>
      match Draft.values? room items with
      | some values =>
        let arity := (family.layout tag).length
        if ¬closed then .error .malformed
        else if arity < values.length then
          .error (.length values.length (Shape.elements arity ++ " in sequence"))
        else .ok (.arr (.str tag :: values))
      | none => .error .malformed
  | draft, _ => .error (draft.mismatch ("internally tagged enum " ++ family.name))

/-- The value of a text that holds a node of a family and nothing else. -/
def Family.readText (family : Family) (content : String) : Except Fault Json :=
  let scan := Scan.ofText content
  match family.read maxDepth scan.root with
  | .error fault => .error fault
  | .ok value => if scan.ended then .ok value else .error .malformed

end AbiRecovery.Json
