/-!
# JSON values

A `Json` value keeps the members of an object in the order of the text, repeated keys included;
`Json.get?` answers with the last member of a key. `Json.depth` counts the containers that are open
at once, so every value inside a container is strictly less deep than the container
(`depth_lt_of_mem_items`, `depth_lt_of_mem_members`), and a function that reads a value by reading
what is inside it ends.
-/

namespace AbiRecovery

/-- A number of a JSON text: an integer, or a double where the text has a fraction, an exponent or
too many digits. -/
inductive Json.Number where
  | int (value : Int)
  | float (value : Float)

/-- A JSON value. -/
inductive Json where
  | null
  | bool (value : Bool)
  | num (value : Json.Number)
  | str (text : String)
  | arr (items : List Json)
  | obj (members : List (String × Json))

namespace Json

instance : Inhabited Json := ⟨.null⟩

/-- The last member with the key `key`. -/
def lookup {α : Type} (key : String) (members : List (String × α)) : Option α :=
  members.foldl (fun found member => if member.1 = key then some member.2 else found) none

/-- The value under a key of an object; of repeated keys the last one counts. -/
def get? (key : String) : Json → Option Json
  | obj members => lookup key members
  | _ => none

mutual

/-- The number of containers open at once. -/
def depth : Json → Nat
  | arr items => itemsDepth items + 1
  | obj members => membersDepth members + 1
  | _ => 0

/-- The depth of the deepest value of a list. -/
def itemsDepth : List Json → Nat
  | [] => 0
  | item :: items => max item.depth (itemsDepth items)

/-- The depth of the deepest value of a list of members. -/
def membersDepth : List (String × Json) → Nat
  | [] => 0
  | (_, value) :: members => max value.depth (membersDepth members)

end

/-- No item of a list is deeper than the deepest one. -/
theorem depth_le_itemsDepth {item : Json} {items : List Json} (h : item ∈ items) :
    item.depth ≤ itemsDepth items := by
  induction items with
  | nil => cases h
  | cons first rest ih =>
    rw [itemsDepth]
    cases h with
    | head => omega
    | tail _ h => have := ih h; omega

/-- No member of a list of members is deeper than the deepest one. -/
theorem depth_le_membersDepth {member : String × Json} {members : List (String × Json)}
    (h : member ∈ members) : member.2.depth ≤ membersDepth members := by
  induction members with
  | nil => cases h
  | cons first rest ih =>
    obtain ⟨key, value⟩ := first
    rw [membersDepth]
    cases h with
    | head => simp only; omega
    | tail _ h => have := ih h; omega

/-- An item is less deep than its list. -/
theorem depth_lt_of_mem_items {item : Json} {items : List Json} (h : item ∈ items) :
    item.depth < (arr items).depth := by
  have := depth_le_itemsDepth h
  rw [depth]
  omega

/-- A member is less deep than its object. -/
theorem depth_lt_of_mem_members {member : String × Json} {members : List (String × Json)}
    (h : member ∈ members) : member.2.depth < (obj members).depth := by
  have := depth_le_membersDepth h
  rw [depth]
  omega

end Json

end AbiRecovery
