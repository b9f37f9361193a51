import Mathlib.Data.List.Forall2
import Mathlib.Data.List.Nodup

/-!
# Facts about lists

What a look-up or a search in a list finds, and what belongs to the parts of a list in order.
-/

namespace AbiRecovery

/-! ### Look-up and search -/

theorem mem_of_lookup_eq_some {α : Type} {members : List (String × α)} {key : String} {value : α}
    (h : members.lookup key = some value) : (key, value) ∈ members := by
  obtain ⟨before, after, rfl, -⟩ := List.lookup_eq_some_iff.mp h
  exact List.mem_append_cons_self

/-- In a list without repeated keys, look-up finds every member. -/
theorem lookup_eq_some_iff_mem {α : Type} {members : List (String × α)} {key : String} {value : α}
    (h : (members.map Prod.fst).Nodup) :
    members.lookup key = some value ↔ (key, value) ∈ members := by
  refine ⟨mem_of_lookup_eq_some, fun hmem => ?_⟩
  obtain ⟨before, after, rfl⟩ := List.append_of_mem hmem
  rw [List.map_append, List.map_cons, List.nodup_middle, List.nodup_cons] at h
  refine List.lookup_eq_some_iff.mpr ⟨before, after, rfl, fun member hmember => ?_⟩
  have hkey : member.1 ∈ before.map Prod.fst := List.mem_map_of_mem hmember
  rw [bne_iff_ne]
  rintro rfl
  exact h.1 (List.mem_append_left _ hkey)

/-- The first element from the end is the last one with a property. -/
theorem find?_reverse_eq_some_iff {α : Type} {p : α → Prop} [DecidablePred p] {items : List α}
    {item : α} :
    (items.reverse.find? fun item => p item) = some item ↔
      ∃ before after, items = before ++ item :: after ∧ p item ∧ ∀ later ∈ after, ¬ p later := by
  rw [List.find?_eq_some_iff_append]
  constructor
  · rintro ⟨hitem, after, before, hreverse, hafter⟩
    refine ⟨before.reverse, after.reverse, ?_, of_decide_eq_true hitem, fun later hlater => ?_⟩
    · rw [← List.reverse_reverse items, hreverse]
      simp
    · simpa using hafter later (List.mem_reverse.mp hlater)
  · rintro ⟨before, after, rfl, hitem, hafter⟩
    refine ⟨decide_eq_true hitem, after.reverse, before.reverse, by simp, fun later hlater => ?_⟩
    simpa using hafter later (List.mem_reverse.mp hlater)

/-! ### Parts of a list -/

theorem forall₂_filterMap {α β : Type} {recover? : α → Option β} {belongs : α → β → Prop}
    (h : ∀ part found, recover? part = some found → belongs part found) (parts : List α) :
    List.Forall₂ belongs (parts.filter fun part => (recover? part).isSome)
      (parts.filterMap recover?) := by
  induction parts with
  | nil => exact .nil
  | cons part parts ih =>
    cases hpart : recover? part with
    | none =>
      rw [List.filter_cons_of_neg (by simp [hpart]), List.filterMap_cons_none hpart]
      exact ih
    | some found =>
      rw [List.filter_cons_of_pos (by simp [hpart]), List.filterMap_cons_some hpart]
      exact .cons (h part found hpart) ih

theorem forall₂_zipIdx {α β : Type} {belongs : α → β → Prop} {parts : List α} {founds : List β}
    (h : List.Forall₂ belongs parts founds) (start : ℕ) :
    List.Forall₂ (fun part found => belongs part.1 found.1 ∧ part.2 = found.2) (parts.zipIdx start)
      (founds.zipIdx start) := by
  induction h generalizing start with
  | nil => exact .nil
  | cons hpart _ ih => exact .cons ⟨hpart, rfl⟩ (ih (start + 1))

end AbiRecovery
