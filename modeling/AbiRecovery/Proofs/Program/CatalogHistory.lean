import AbiRecovery.Proofs.Program.StructCatalog

/-!
# What a catalog records of the structs that are added

Structs are added to a catalog one after the other, with names that repeat in any way. A name is
listed when it appears for the first time, and it is a duplicate when it appears for the second
time. Both lists are the same thing for another rank: the names of the sequence at the places where
a name has appeared `rank` times before (`appearances`).

A catalog `Records` a sequence if its names and its duplicates are these lists, and its index has
the position of each name. One struct more keeps that (`Records.insert`), so it holds after any
sequence (`records_ofStructs`).
-/

namespace AbiRecovery

/-! ### Appearances of names -/

/-- The names of a sequence at the places where a name has **appeared** `rank` times before: the
first appearances for rank zero, the second ones for rank one. -/
def appearances (rank : ℕ) (names : List String) : List String :=
  (names.zipIdx.filter fun entry => (names.take entry.2).count entry.1 = rank).map Prod.fst

theorem appearances_concat (rank : ℕ) (names : List String) (name : String) :
    appearances rank (names ++ [name]) =
      appearances rank names ++ if names.count name = rank then [name] else [] := by
  have hearlier : names.zipIdx.filter
      (fun entry => ((names ++ [name]).take entry.2).count entry.1 = rank) =
        names.zipIdx.filter fun entry => (names.take entry.2).count entry.1 = rank := by
    refine List.filter_congr fun entry hentry => ?_
    have hlt := List.snd_lt_of_mem_zipIdx hentry
    rw [List.take_append_of_le_length (by omega)]
  unfold appearances
  rw [List.zipIdx_append, List.filter_append, hearlier, List.map_append]
  split_ifs with hcount <;> simp [hcount]

/-- A name that appears more than `rank` times has one such appearance. -/
theorem count_appearances (rank : ℕ) (names : List String) (name : String) :
    (appearances rank names).count name = if rank < names.count name then 1 else 0 := by
  induction names using List.reverseRecOn with
  | nil => simp [appearances]
  | append_singleton names last ih =>
    have hlast : ([last] : List String).count name = if last = name then 1 else 0 := by
      simp [List.count_singleton]
    rw [appearances_concat, List.count_append, List.count_append, ih, hlast]
    by_cases hname : last = name
    · subst hname
      rw [if_pos rfl]
      by_cases hcount : names.count last = rank
      · simp [hcount]
      · simp only [hcount, if_false, List.count_nil]
        split_ifs <;> omega
    · have hnone : (if names.count last = rank then [last] else []).count name = 0 := by
        split_ifs <;> simp [hname]
      rw [hnone, if_neg hname, Nat.add_zero, Nat.add_zero]

theorem mem_appearances {rank : ℕ} {names : List String} {name : String} :
    name ∈ appearances rank names ↔ rank < names.count name := by
  rw [← List.count_pos_iff, count_appearances]
  split_ifs with hcount <;> simp [hcount]

theorem nodup_appearances (rank : ℕ) (names : List String) : (appearances rank names).Nodup := by
  rw [List.nodup_iff_count_le_one]
  intro name
  rw [count_appearances]
  split_ifs <;> omega

/-! ### One struct -/

namespace Catalog

/-- A catalog **records** the structs that were added to it. -/
structure Records (catalog : Catalog) (added : List StructDef) : Prop where
  names : catalog.structs.map StructDef.name = appearances 0 (added.map StructDef.name)
  index : catalog.index = (catalog.structs.map StructDef.name).zipIdx
  duplicates : catalog.duplicates = appearances 1 (added.map StructDef.name)

namespace Records

variable {catalog : Catalog} {added : List StructDef} (h : catalog.Records added)
include h

theorem position?_eq_some_iff {name : String} {position : ℕ} :
    catalog.position? name = some position ↔
      (catalog.structs.map StructDef.name)[position]? = some name := by
  have hkeys : (catalog.index.map Prod.fst).Nodup := by
    rw [h.index, List.zipIdx_map_fst, h.names]
    exact nodup_appearances 0 _
  rw [position?, lookup_eq_some_iff_mem hkeys, h.index, List.mem_zipIdx_iff_getElem?]

theorem position?_eq_none_iff {name : String} :
    catalog.position? name = none ↔ (added.map StructDef.name).count name = 0 := by
  have hmem : name ∈ catalog.structs.map StructDef.name ↔
      ∃ position, catalog.position? name = some position := by
    simp only [h.position?_eq_some_iff, List.mem_iff_getElem?]
  rw [Option.eq_none_iff_forall_ne_some, ← not_exists, ← hmem, h.names, mem_appearances]
  omega

/-- **One struct more** is recorded. -/
theorem insert (struct : StructDef) :
    (catalog.insert struct).Records (added ++ [struct]) := by
  have hconcat : ∀ rank, appearances rank ((added ++ [struct]).map StructDef.name) =
      appearances rank (added.map StructDef.name) ++
        if (added.map StructDef.name).count struct.name = rank then [struct.name] else [] := by
    intro rank
    rw [List.map_append, List.map_singleton, appearances_concat]
  cases hposition : catalog.position? struct.name with
  | some position =>
    have hcount : (added.map StructDef.name).count struct.name ≠ 0 := by
      rw [ne_eq, ← h.position?_eq_none_iff, hposition]
      exact Option.some_ne_none position
    -- The definition at the position has the name already, so no name changes.
    have hnames : (catalog.structs.set position struct).map StructDef.name =
        catalog.structs.map StructDef.name := by
      obtain ⟨hlt, hname⟩ := List.getElem?_eq_some_iff.mp (h.position?_eq_some_iff.mp hposition)
      rw [List.map_set, ← hname, List.set_getElem_self]
    have hmem : struct.name ∈ catalog.duplicates ↔
        (added.map StructDef.name).count struct.name ≠ 1 := by
      rw [h.duplicates, mem_appearances]
      omega
    simp only [Catalog.insert, hposition]
    refine ⟨?_, ?_, ?_⟩
    · rw [hnames, hconcat, if_neg hcount, List.append_nil, h.names]
    · rw [hnames, h.index]
    · rw [hconcat, ← h.duplicates]
      by_cases honce : (added.map StructDef.name).count struct.name = 1
      · rw [if_pos honce, if_neg fun hduplicate => hmem.mp hduplicate honce]
      · rw [if_neg honce, if_pos (hmem.mpr honce), List.append_nil]
  | none =>
    have hcount := h.position?_eq_none_iff.mp hposition
    simp only [Catalog.insert, hposition]
    refine ⟨?_, ?_, ?_⟩
    · rw [hconcat, if_pos hcount, List.map_append, List.map_singleton, h.names]
    · rw [h.index, List.map_append, List.map_singleton, List.zipIdx_append, List.length_map,
        Nat.zero_add]
      rfl
    · rw [hconcat, if_neg (by omega), List.append_nil, h.duplicates]

end Records

/-! ### Any sequence of structs -/

theorem records_ofStructs (added : List StructDef) : (ofStructs added).Records added := by
  induction added using List.reverseRecOn with
  | nil => exact ⟨rfl, rfl, rfl⟩
  | append_singleton added struct ih =>
    rw [ofStructs_concat]
    exact ih.insert struct

/-- **A catalog after any sequence of additions.** Let structs be added to an empty catalog, in any
order and with any names.

The index gives a name a position exactly if the definition at this position has the name, so a
position is never out of range, and it gives one to the names that were added and to no others. The
definitions are listed once for each name, in the order of the first appearances. What is found
under a name is the last struct that was added under it, and nothing if there is none. The
duplicates are the names that were added at least twice, each of them once, in the order of the
second appearances. -/
theorem catalog_after_additions (added : List StructDef) :
    let catalog := ofStructs added
    let names := added.map StructDef.name
    (∀ name position, catalog.position? name = some position ↔
      ∃ struct, catalog.structs[position]? = some struct ∧ struct.name = name) ∧
    (∀ name, (∃ position, catalog.position? name = some position) ↔ name ∈ names) ∧
    catalog.structs.map StructDef.name = appearances 0 names ∧
    (∀ name, (catalog.structs.map StructDef.name).count name = if name ∈ names then 1 else 0) ∧
    (∀ name struct, catalog.get? name = some struct ↔
      ∃ before after, added = before ++ struct :: after ∧ struct.name = name ∧
        ∀ later ∈ after, later.name ≠ name) ∧
    (∀ name, catalog.get? name = none ↔ name ∉ names) ∧
    catalog.duplicates = appearances 1 names ∧
    ∀ name, catalog.duplicates.count name = if 2 ≤ names.count name then 1 else 0 := by
  intro catalog names
  have hrecords : catalog.Records added := records_ofStructs added
  have hmem : ∀ name, name ∈ names ↔ names.count name ≠ 0 := by
    intro name
    rw [← List.count_pos_iff]
    omega
  have hposition : ∀ name, (∃ position, catalog.position? name = some position) ↔
      name ∈ names := by
    intro name
    rw [hmem, ne_eq, ← hrecords.position?_eq_none_iff, ← ne_eq, Option.ne_none_iff_exists']
  have hfound : ∀ name, catalog.get? name = none ↔ name ∉ names := by
    intro name
    rw [get?_ofStructs, List.find?_eq_none]
    simp [names]
  refine ⟨?_, hposition, hrecords.names, ?_, ?_, hfound, hrecords.duplicates, ?_⟩
  · intro name position
    rw [hrecords.position?_eq_some_iff, List.getElem?_map, Option.map_eq_some_iff]
  · intro name
    rw [hrecords.names, count_appearances]
    simp only [hmem, Nat.pos_iff_ne_zero]
    rfl
  · intro name struct
    rw [get?_ofStructs, find?_reverse_eq_some_iff]
  · intro name
    rw [hrecords.duplicates, count_appearances]
    rfl

end Catalog

end AbiRecovery
