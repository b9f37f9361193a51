import AbiRecovery.Json.Value

/-!
# Nodes of a tree document

A node is an object with its fields under their keys, or a list with its fields by position; a node
of a family with several variants says in its member `_type`, or in its first item, which variant it
is. `record?` and `variant?` bring both forms to members under keys. A list with more items than the
node has fields is no node.

Fields are read leniently, and each on its own: a field that is missing or cannot be read has its
default. Since what a node holds is less deep than the node, a reader may call itself on it.
-/

namespace AbiRecovery.Json

/-- A value inside the value `node`. -/
abbrev Inner (node : Json) := { value : Json // value.depth < node.depth }

/-- The fields of the node `node` under their keys. -/
abbrev Members (node : Json) := List (String × Inner node)

/-- The items of a list. -/
def innerItems (items : List Json) : List (Inner (arr items)) :=
  items.attach.map fun item => ⟨item.1, depth_lt_of_mem_items item.2⟩

/-- The members of an object. -/
def innerMembers (members : List (String × Json)) : Members (obj members) :=
  members.attach.map fun member => (member.1.1, ⟨member.1.2, depth_lt_of_mem_members member.2⟩)

/-- The key of the member that names a node's variant. -/
def tagKey : String := "_type"

/-- The fields of a node that has the keys `keys`, in this order when it is a list. -/
def record? (keys : List String) : (node : Json) → Option (Members node)
  | obj members => some (innerMembers members)
  | arr items => if items.length ≤ keys.length then some (keys.zip (innerItems items)) else none
  | _ => none

/-- The variant and the fields of a node whose variants have the keys that `layout` gives. -/
def variant? (layout : String → List String) : (node : Json) → Option (String × Members node)
  | obj members =>
    match lookup tagKey members with
    | some (str tag) => some (tag, innerMembers members)
    | _ => none
  | arr (str tag :: items) =>
    if items.length ≤ (layout tag).length then
      some (tag, (layout tag).zip (innerItems (str tag :: items)).tail)
    else none
  | _ => none

namespace Members

variable {outer : Json} {α : Type}

/-- The node under a key, or none. -/
def optional (members : Members outer) (key : String) (read : Inner outer → Option α) : Option α :=
  (lookup key members).bind read

/-- The node under a key, or the default node. -/
def node [Inhabited α] (members : Members outer) (key : String)
    (read : Inner outer → Option α) : α :=
  (members.optional key read).getD default

/-- The list of nodes under a key. An item that cannot be read keeps its place as the default
node; what is no list has no items. -/
def nodes [Inhabited α] (members : Members outer) (key : String) (read : Inner outer → Option α) :
    List α :=
  match lookup key members with
  | some ⟨arr items, h⟩ =>
    items.attach.map fun item =>
      (read ⟨item.1, Nat.lt_trans (depth_lt_of_mem_items item.2) h⟩).getD default
  | _ => []

/-- The text under a key, or the empty text. -/
def text (members : Members outer) (key : String) : String :=
  members.node key fun value =>
    match value.1 with
    | str text => some text
    | _ => none

/-- The truth value under a key, or false. -/
def flag (members : Members outer) (key : String) : Bool :=
  members.node key fun value =>
    match value.1 with
    | bool b => some b
    | _ => none

end Members

end AbiRecovery.Json
