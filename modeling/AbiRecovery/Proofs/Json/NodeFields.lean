import AbiRecovery.Json.Node
import Mathlib.Data.List.Basic

/-!
# The fields of a node

A reader gets the fields of a node together with the proofs that they are less deep than the node.
Without these proofs, what a reader finds under a key is a matter of plain look-up
(`Members.node_eq`, `Members.nodes_eq`, `Members.optional_eq`), and the fields of a node are its
members, or its items under the keys of the node (`record?_plain`, `variant?_plain`).
-/

namespace AbiRecovery.Json

/-! ### Look-up -/

section

variable {α β : Type}

/-- The values under a key, in the order of the members. -/
def valuesAt (key : String) (members : List (String × α)) : List α :=
  (members.filter fun member => member.1 = key).map Prod.snd

theorem valuesAt_cons_self (key : String) (value : α) (members : List (String × α)) :
    valuesAt key ((key, value) :: members) = value :: valuesAt key members := by
  rw [valuesAt, List.filter_cons_of_pos (by simp)]
  rfl

theorem valuesAt_cons_ne {key other : String} (h : other ≠ key) (value : α)
    (members : List (String × α)) :
    valuesAt key ((other, value) :: members) = valuesAt key members := by
  rw [valuesAt, List.filter_cons_of_neg (by simpa using h)]
  rfl

theorem valuesAt_map (f : α → β) (key : String) (members : List (String × α)) :
    valuesAt key (members.map fun member => (member.1, f member.2)) =
      (valuesAt key members).map f := by
  rw [valuesAt, valuesAt, List.filter_map, List.map_map, List.map_map]
  rfl

theorem foldl_lookup (key : String) (members : List (String × α)) (found : Option α) :
    members.foldl (fun found member => if member.1 = key then some member.2 else found) found =
      (valuesAt key members).getLast?.or found := by
  induction members generalizing found with
  | nil => rfl
  | cons member members ih =>
    obtain ⟨other, value⟩ := member
    rw [List.foldl_cons, ih]
    by_cases h : other = key
    · subst h
      rw [if_pos rfl, valuesAt_cons_self, List.getLast?_cons]
      cases (valuesAt other members).getLast? <;> rfl
    · rw [if_neg h, valuesAt_cons_ne h]

/-- **Look-up** finds the last value under a key. -/
theorem lookup_eq_getLast? (key : String) (members : List (String × α)) :
    lookup key members = (valuesAt key members).getLast? := by
  rw [lookup, foldl_lookup, Option.or_none]

theorem lookup_map (f : α → β) (key : String) (members : List (String × α)) :
    lookup key (members.map fun member => (member.1, f member.2)) = (lookup key members).map f := by
  rw [lookup_eq_getLast?, lookup_eq_getLast?, valuesAt_map, List.getLast?_map]

theorem mem_of_lookup {key : String} {members : List (String × α)} {value : α}
    (h : lookup key members = some value) : (key, value) ∈ members := by
  rw [lookup_eq_getLast?] at h
  obtain ⟨member, hmember, rfl⟩ := List.mem_map.mp (List.mem_of_getLast? h)
  obtain ⟨hmem, hkey⟩ := List.mem_filter.mp hmember
  rw [← of_decide_eq_true hkey]
  exact hmem

end

/-- The items of a list; what is no list has none. -/
def listed : Option Json → List Json
  | some (arr items) => items
  | _ => []

namespace Members

variable {outer : Json} {α : Type}

/-- The fields of a node without the proofs of their depths. -/
def plain (members : Members outer) : List (String × Json) :=
  members.map fun member => (member.1, member.2.1)

theorem optional_eq (members : Members outer) (key : String) (read : Json → Option α) :
    members.optional key (fun value => read value.1) = (lookup key members.plain).bind read := by
  rw [plain, lookup_map (fun value : Inner outer => value.1), optional, Option.bind_map]
  rfl

theorem node_eq [Inhabited α] (members : Members outer) (key : String)
    (read : Json → Option α) :
    members.node key (fun value => read value.1) =
      ((lookup key members.plain).bind read).getD default := by
  rw [node, optional_eq]

theorem nodes_eq [Inhabited α] (members : Members outer) (key : String)
    (read : Json → Option α) :
    members.nodes key (fun value => read value.1) =
      (listed (lookup key members.plain)).map fun item => (read item).getD default := by
  rw [plain, lookup_map (fun value : Inner outer => value.1), nodes]
  rcases lookup key members with _ | ⟨value, hvalue⟩
  · rfl
  · cases value with
    | arr items => exact List.attach_map_val (f := fun item => (read item).getD default)
    | null | bool | num | str | obj => rfl

end Members

/-- The fields of a record with the keys `keys`. -/
def fields? (keys : List String) : Json → Option (List (String × Json))
  | obj members => some members
  | arr items => if items.length ≤ keys.length then some (keys.zip items) else none
  | _ => none

/-- The tag and the fields of a node whose variants have the keys that `layout` gives. -/
def taggedFields? (layout : String → List String) : Json → Option (String × List (String × Json))
  | obj members =>
    match lookup tagKey members with
    | some (str tag) => some (tag, members)
    | _ => none
  | arr (str tag :: items) =>
    if items.length ≤ (layout tag).length then some (tag, (layout tag).zip items) else none
  | _ => none

theorem plain_innerMembers (members : List (String × Json)) :
    (innerMembers members).plain = members := by
  rw [Members.plain, innerMembers, List.map_map]
  exact List.attach_map_subtype_val members

theorem map_val_innerItems (items : List Json) :
    (innerItems items).map Subtype.val = items := by
  rw [innerItems, List.map_map]
  exact List.attach_map_subtype_val items

theorem plain_zip {outer : Json} (keys : List String) (items : List (Inner outer)) :
    Members.plain (keys.zip items) = keys.zip (items.map Subtype.val) := by
  rw [Members.plain, List.zip_map_right]
  rfl

theorem record?_plain (keys : List String) (node : Json) :
    (node.record? keys).map Members.plain = node.fields? keys := by
  cases node with
  | obj members => exact congrArg some (plain_innerMembers members)
  | arr items =>
    rw [record?, fields?]
    split_ifs with hlength
    · rw [Option.map_some, plain_zip, map_val_innerItems]
    · rfl
  | null | bool | num | str => rfl

theorem variant?_plain (layout : String → List String) (node : Json) :
    (node.variant? layout).map (fun found => (found.1, found.2.plain)) =
      node.taggedFields? layout := by
  cases node with
  | obj members =>
    rw [variant?, taggedFields?]
    rcases lookup tagKey members with _ | value
    · rfl
    · cases value with
      | str tag => exact congrArg (fun members => some (tag, members)) (plain_innerMembers members)
      | null | bool | num | arr | obj => rfl
  | arr items =>
    rcases items with _ | ⟨first, items⟩
    · rfl
    · cases first with
      | str tag =>
        rw [variant?, taggedFields?]
        split_ifs with hlength
        · rw [Option.map_some, plain_zip, List.map_tail, map_val_innerItems, List.tail_cons]
        · rfl
      | null | bool | num | arr | obj => rfl
  | null | bool | num | str => rfl

end AbiRecovery.Json
