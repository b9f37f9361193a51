import AbiRecovery.Proofs.Json.Reading
import Mathlib.Tactic.SplitIfs

/-!
# Well-formed texts

A text `Holds` a value if it is well-formed JSON for it, however deep the value is. How many
containers may be open at once is then a matter of the value alone: within any room, the draft of
such a text has its value exactly if the value is not deeper than the room (`value?_eq_ite`).

The shape `any` takes every value that the room allows (`Shape.read_any`), so what a reader makes of
a well-formed text can be said in terms of the value. The printed text of a value holds it
(`holds_compact`).
-/

namespace AbiRecovery.Json

namespace Draft

/-! ### What a draft with a value looks like -/

theorem values?_cons {room : ℕ} {item : Draft} {items : List Draft} {values : List Json}
    (h : values? room (item :: items) = some values) :
    ∃ value rest, item.value? room = some value ∧ values? room items = some rest ∧
      values = value :: rest := by
  rw [values?] at h
  split at h
  · cases h
  · next value hvalue =>
    obtain ⟨rest, hrest, rfl⟩ := Option.map_eq_some_iff.mp h
    exact ⟨value, rest, hvalue, hrest, rfl⟩

theorem memberValues?_cons {room : ℕ} {key : Option String} {member : Draft}
    {members : List (Option String × Draft)} {values : List (String × Json)}
    (h : memberValues? room ((key, member) :: members) = some values) :
    ∃ name value rest, key = some name ∧ member.value? room = some value ∧
      memberValues? room members = some rest ∧ values = (name, value) :: rest := by
  unfold memberValues? at h
  split at h
  · next name value hvalue =>
    obtain ⟨rest, hrest, rfl⟩ := Option.map_eq_some_iff.mp h
    exact ⟨name, value, rest, rfl, hvalue, hrest, rfl⟩
  · cases h

theorem value?_arr {room : ℕ} {items : List Draft} {closed : Bool} {value : Json}
    (h : (arr items closed).value? room = some value) :
    closed = true ∧ ∃ smaller values, room = smaller + 1 ∧ values? smaller items = some values ∧
      value = .arr values := by
  cases room with
  | zero =>
    rw [value?] at h
    cases h
  | succ smaller =>
    rw [value?] at h
    split_ifs at h with hclosed
    obtain ⟨values, hvalues, rfl⟩ := Option.map_eq_some_iff.mp h
    exact ⟨hclosed, smaller, values, rfl, hvalues, rfl⟩

theorem value?_obj {room : ℕ} {members : List (Option String × Draft)} {closed : Bool}
    {value : Json} (h : (obj members closed).value? room = some value) :
    closed = true ∧ ∃ smaller values, room = smaller + 1 ∧
      memberValues? smaller members = some values ∧ value = .obj values := by
  cases room with
  | zero =>
    rw [value?] at h
    cases h
  | succ smaller =>
    rw [value?] at h
    split_ifs at h with hclosed
    obtain ⟨values, hvalues, rfl⟩ := Option.map_eq_some_iff.mp h
    exact ⟨hclosed, smaller, values, rfl, hvalues, rfl⟩

mutual

/-- A value that is found within some room is not deeper than the room, and is found within every
room that it fits in. -/
theorem value?_room : ∀ {draft : Draft} {room : ℕ} {value : Json},
    draft.value? room = some value →
      value.depth ≤ room ∧ ∀ other, value.depth ≤ other → draft.value? other = some value
  | null, room, value, h => by
    rw [value?] at h
    cases h
    exact ⟨Nat.zero_le _, fun _ _ => by rw [value?]⟩
  | bool b, room, value, h => by
    rw [value?] at h
    cases h
    exact ⟨Nat.zero_le _, fun _ _ => by rw [value?]⟩
  | num numeral, room, value, h => by
    rw [value?] at h
    obtain ⟨number, hnumber, rfl⟩ := Option.map_eq_some_iff.mp h
    exact ⟨Nat.zero_le _, fun _ _ => by rw [value?, hnumber]; rfl⟩
  | str text, room, value, h => by
    rw [value?] at h
    obtain ⟨content, rfl, rfl⟩ := Option.map_eq_some_iff.mp h
    exact ⟨Nat.zero_le _, fun _ _ => by rw [value?]; rfl⟩
  | arr items closed, room, value, h => by
    obtain ⟨rfl, smaller, values, rfl, hvalues, rfl⟩ := value?_arr h
    obtain ⟨hle, hroom⟩ := values?_room hvalues
    refine ⟨by rw [depth]; omega, fun other hother => ?_⟩
    rw [depth] at hother
    obtain ⟨rest, rfl⟩ := Nat.exists_eq_add_of_lt (show 0 < other by omega)
    rw [Nat.zero_add, value?, if_pos rfl, hroom rest (by omega)]
    rfl
  | obj members closed, room, value, h => by
    obtain ⟨rfl, smaller, values, rfl, hvalues, rfl⟩ := value?_obj h
    obtain ⟨hle, hroom⟩ := memberValues?_room hvalues
    refine ⟨by rw [depth]; omega, fun other hother => ?_⟩
    rw [depth] at hother
    obtain ⟨rest, rfl⟩ := Nat.exists_eq_add_of_lt (show 0 < other by omega)
    rw [Nat.zero_add, value?, if_pos rfl, hroom rest (by omega)]
    rfl
  | cut, room, value, h => by
    rw [value?] at h
    cases h

theorem values?_room : ∀ {items : List Draft} {room : ℕ} {values : List Json},
    values? room items = some values →
      itemsDepth values ≤ room ∧ ∀ other, itemsDepth values ≤ other →
        values? other items = some values
  | [], room, values, h => by
    rw [values?] at h
    cases h
    exact ⟨Nat.zero_le _, fun _ _ => by rw [values?]⟩
  | item :: items, room, values, h => by
    obtain ⟨value, rest, hvalue, hrest, rfl⟩ := values?_cons h
    obtain ⟨hle, hroom⟩ := value?_room hvalue
    obtain ⟨hles, hrooms⟩ := values?_room hrest
    refine ⟨by rw [itemsDepth]; omega, fun other hother => ?_⟩
    rw [itemsDepth] at hother
    rw [values?, hroom other (by omega), hrooms other (by omega)]
    rfl

theorem memberValues?_room : ∀ {members : List (Option String × Draft)} {room : ℕ}
    {values : List (String × Json)}, memberValues? room members = some values →
      membersDepth values ≤ room ∧ ∀ other, membersDepth values ≤ other →
        memberValues? other members = some values
  | [], room, values, h => by
    rw [memberValues?] at h
    cases h
    exact ⟨Nat.zero_le _, fun _ _ => by rw [memberValues?]⟩
  | (key, member) :: members, room, values, h => by
    obtain ⟨name, value, rest, rfl, hvalue, hrest, rfl⟩ := memberValues?_cons h
    obtain ⟨hle, hroom⟩ := value?_room hvalue
    obtain ⟨hles, hrooms⟩ := memberValues?_room hrest
    refine ⟨by rw [membersDepth]; omega, fun other hother => ?_⟩
    rw [membersDepth] at hother
    unfold memberValues?
    rw [hroom other (by omega), hrooms other (by omega)]
    rfl

end

/-- **The room for a value** is its depth. -/
theorem value?_eq_ite {draft : Draft} {room : ℕ} {value : Json}
    (h : draft.value? room = some value) (other : ℕ) :
    draft.value? other = if value.depth ≤ other then some value else none := by
  obtain ⟨hle, hroom⟩ := value?_room h
  split_ifs with hother
  · exact hroom other hother
  · rw [Option.eq_none_iff_forall_ne_some]
    intro found hfound
    -- What a smaller room has is also found in the larger one, so it would be the value itself.
    obtain ⟨hfoundLe, hfoundRoom⟩ := value?_room hfound
    have hsame := hfoundRoom room (by omega)
    rw [h] at hsame
    cases hsame
    omega

end Draft

/-- A text **holds** a value: it is well-formed JSON for the value and nothing else, however many
containers are open at once. A text with an escape for half of a surrogate pair without the other
half, or with a number beyond the largest double, holds no value, although the grammar allows it. -/
def Holds (text : String) (value : Json) : Prop :=
  (Scan.ofText text).ended = true ∧ ∃ room, (Scan.ofText text).root.value? room = some value

/-- The text holds the value, with at most `maxDepth` containers open at once. -/
def WellFormed (text : String) (value : Json) : Prop :=
  Holds text value ∧ value.depth ≤ maxDepth

theorem Shape.read_any (room : ℕ) (draft : Draft) :
    Shape.any.read room draft = (draft.value? room).elim (.error .malformed) .ok := by
  cases draft with
  | num numeral =>
    rw [read, Draft.value?]
    cases numeral.toNumber? <;> rfl
  | str text => cases text <;> rfl
  | null | bool | arr | obj | cut => rfl

/-! ### Printed values -/

mutual

theorem value?_draft : ∀ value : Json, value.Exact → value.draft.value? value.depth = some value
  | null, _ => rfl
  | bool _, _ => rfl
  | str _, _ => rfl
  | num number, h => by
    rw [Exact] at h
    obtain ⟨code, rfl⟩ := h
    rw [draft, Draft.value?, Number.numeral, Int.toNat_natCast, toNumber?_ofNat]
    rfl
  | arr items, h => by
    rw [Exact] at h
    rw [draft, depth, Draft.value?, if_pos rfl, values?_itemDrafts items h]
    rfl
  | obj members, h => by
    rw [Exact] at h
    rw [draft, depth, Draft.value?, if_pos rfl, memberValues?_memberDrafts members h]
    rfl

theorem values?_itemDrafts : ∀ items : List Json, ItemsExact items →
    Draft.values? (itemsDepth items) (itemDrafts items) = some items
  | [], _ => rfl
  | item :: items, h => by
    rw [ItemsExact] at h
    have hitem := (Draft.value?_room (value?_draft item h.1)).2
    have hitems := (Draft.values?_room (values?_itemDrafts items h.2)).2
    rw [itemDrafts, itemsDepth, Draft.values?, hitem _ (by omega), hitems _ (by omega)]
    rfl

theorem memberValues?_memberDrafts : ∀ members : List (String × Json), MembersExact members →
    Draft.memberValues? (membersDepth members) (memberDrafts members) = some members
  | [], _ => rfl
  | (key, value) :: members, h => by
    rw [MembersExact] at h
    have hvalue := (Draft.value?_room (value?_draft value h.1)).2
    have hmembers := (Draft.memberValues?_room (memberValues?_memberDrafts members h.2)).2
    rw [memberDrafts, membersDepth]
    unfold Draft.memberValues?
    rw [hvalue _ (by omega), hmembers _ (by omega)]
    rfl

end

theorem holds_of_spells {text : String} {value : Json} (h : value.Exact)
    (htext : Spells text.toList value.tokens) : Holds text value := by
  rw [Holds, scan_of_spells htext]
  exact ⟨rfl, value.depth, value?_draft value h⟩

/-- **The compact text** of a value holds the value. -/
theorem holds_compact {value : Json} (h : value.Exact) : Holds value.compact value := by
  refine holds_of_spells h ?_
  rw [compact, String.toList_ofList]
  exact spells_compactChars value h

end AbiRecovery.Json
