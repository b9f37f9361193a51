import AbiRecovery.Analysis
import AbiRecovery.Proofs.ListLemmas
import Mathlib.Data.List.Induction

/-!
# The latest definition counts

A catalog finds its structs through an index. The index stays right while structs are added
(`indexed_insert`), so a struct that is added is found under its name and the other names are as
before (`get?_insert`). Of a sequence of structs the catalog then has the last one of each name
(`get?_ofStructs`), and the inputs of a type are the fields of its last definition in the file
(`inputsOf_structInputs`).
-/

namespace AbiRecovery

open AbiRecovery.Tree

namespace Catalog

/-! ### The index -/

/-- The index of a catalog gives each name the position of a definition of that name. -/
def Indexed (catalog : Catalog) : Prop :=
  ∀ name position, catalog.position? name = some position →
    ∃ struct, catalog.structs[position]? = some struct ∧ struct.name = name

theorem position?_insert (catalog : Catalog) (struct : StructDef) (name : String) :
    (catalog.insert struct).position? name =
      (catalog.position? name).or
        (if struct.name = name then some catalog.structs.length else none) := by
  unfold insert
  cases hposition : catalog.position? struct.name with
  | some position =>
    show catalog.position? name = _
    split_ifs with hname
    · rw [← hname, hposition, Option.some_or]
    · rw [Option.or_none]
  | none =>
    show (catalog.index ++ [(struct.name, catalog.structs.length)]).lookup name = _
    rw [List.lookup_append, List.lookup_cons, List.lookup_nil]
    split_ifs with hname
    · rw [hname, beq_self_eq_true]
      rfl
    · rw [beq_false_of_ne (Ne.symm hname)]
      rfl

/-- **Adding a struct** changes what is found under its name, and nothing else. -/
theorem get?_insert {catalog : Catalog} (h : catalog.Indexed) (struct : StructDef)
    (name : String) :
    (catalog.insert struct).get? name =
      if struct.name = name then some struct else catalog.get? name := by
  unfold get?
  rw [position?_insert]
  cases hposition : catalog.position? struct.name with
  | some place =>
    have hstructs : (catalog.insert struct).structs = catalog.structs.set place struct := by
      simp only [insert, hposition]
    obtain ⟨old, hold, holdName⟩ := h _ _ hposition
    rw [hstructs]
    split_ifs with hname
    · have hplace := (List.getElem?_eq_some_iff.mp hold).1
      rw [← hname, hposition, Option.some_or, Option.bind_some, List.getElem?_set_self hplace]
    · rw [Option.or_none]
      refine Option.bind_congr fun other hother => List.getElem?_set_ne ?_
      -- Two names with one position would name one definition.
      rintro rfl
      obtain ⟨found, hfound, hfoundName⟩ := h _ _ hother
      rw [hold] at hfound
      cases hfound
      exact hname (holdName.symm.trans hfoundName)
  | none =>
    have hstructs : (catalog.insert struct).structs = catalog.structs ++ [struct] := by
      simp only [insert, hposition]
    rw [hstructs]
    split_ifs with hname
    · rw [← hname, hposition, Option.none_or, Option.bind_some, List.getElem?_concat_length]
    · rw [Option.or_none]
      refine Option.bind_congr fun other hother => List.getElem?_append_left ?_
      obtain ⟨found, hfound, -⟩ := h _ _ hother
      exact (List.getElem?_eq_some_iff.mp hfound).1

theorem indexed_insert {catalog : Catalog} (h : catalog.Indexed) (struct : StructDef) :
    (catalog.insert struct).Indexed := by
  intro name position hposition
  have hget : (catalog.insert struct).get? name =
      (catalog.insert struct).structs[position]? := by
    rw [get?, hposition, Option.bind_some]
  rw [← hget, get?_insert h]
  rw [position?_insert] at hposition
  split_ifs at hposition ⊢ with hname
  · exact ⟨struct, rfl, hname⟩
  · rw [Option.or_none] at hposition
    obtain ⟨found, hfound, hfoundName⟩ := h _ _ hposition
    exact ⟨found, by rw [get?, hposition, Option.bind_some, hfound], hfoundName⟩

/-! ### Sequences of structs -/

theorem ofStructs_concat (structs : List StructDef) (struct : StructDef) :
    ofStructs (structs ++ [struct]) = (ofStructs structs).insert struct := by
  rw [ofStructs, List.foldl_append]
  rfl

theorem indexed_ofStructs (structs : List StructDef) : (ofStructs structs).Indexed := by
  induction structs using List.reverseRecOn with
  | nil =>
    intro name position hposition
    cases hposition
  | append_singleton structs struct ih =>
    rw [ofStructs_concat]
    exact indexed_insert ih struct

/-- **The last struct of a name** is found in the catalog of a sequence. -/
theorem get?_ofStructs (structs : List StructDef) (name : String) :
    (ofStructs structs).get? name = structs.reverse.find? fun struct => struct.name = name := by
  induction structs using List.reverseRecOn with
  | nil => rfl
  | append_singleton structs struct ih =>
    rw [ofStructs_concat, get?_insert (indexed_ofStructs structs), ih, List.reverse_append,
      List.reverse_singleton, List.singleton_append, List.find?_cons]
    split_ifs with hname
    · rw [decide_eq_true hname]
    · rw [decide_eq_false hname]

end Catalog

/-! ### Inputs -/

/-- The inputs that fields give: one for each named field whose name could be read. -/
def fieldInputs : Fields → List InputField
  | .named fields => fields.filterMap fun field =>
    field.name?.map fun name => ⟨name, (TypePath.ofType field.type).canonical?⟩
  | _ => []

/-- The **inputs of a type** among the structs of a file: the fields of its last definition, and
none if it has no definition. -/
inductive InputsOf (name : String) (structs : List StructItem) : List InputField → Prop
  | last {before after : List StructItem} {item : StructItem} :
    structs = before ++ item :: after → item.ident.text = name →
      (∀ later ∈ after, later.ident.text ≠ name) → InputsOf name structs (fieldInputs item.fields)
  | undefined : (∀ item ∈ structs, item.ident.text ≠ name) → InputsOf name structs []

theorem get?_structDefs (file : File) {name : String} (hname : name ≠ "") :
    (Catalog.ofStructs (Analysis.structDefs file)).get? name =
      (file.structs.reverse.find? fun item => item.ident.text = name).bind StructDef.ofItem? := by
  have hsame : ∀ item : StructItem, ((StructDef.ofItem? item).any fun struct =>
      struct.name = name) = decide (item.ident.text = name) := by
    intro item
    unfold StructDef.ofItem? Ident.name?
    split_ifs with hempty
    · simp [hempty, Ne.symm hname]
    · simp
  rw [Catalog.get?_ofStructs, Analysis.structDefs, ← List.filterMap_reverse, List.find?_filterMap]
  simp only [hsame]

theorem fieldInputs_of_ofItem? {item : StructItem} {struct : StructDef}
    (h : StructDef.ofItem? item = some struct) :
    struct.fields.map (fun field => ⟨field.name, field.type.canonical?⟩) =
      fieldInputs item.fields := by
  obtain ⟨name, -, rfl⟩ := Option.map_eq_some_iff.mp h
  cases hfields : item.fields with
  | named fields =>
    simp only [fieldInputs, List.map_filterMap, FieldDef.ofField?, Option.map_map,
      Function.comp_def]
  | unnamed fields => rfl
  | unit => rfl
  | other => rfl

/-- **The inputs of a type** are those of its last definition. -/
theorem inputsOf_structInputs (file : File) {name : String} (hname : name ≠ "") :
    InputsOf name file.structs
      (Assembly.structInputs (Catalog.ofStructs (Analysis.structDefs file)) name) := by
  unfold Assembly.structInputs
  rw [get?_structDefs file hname]
  cases hfind : file.structs.reverse.find? fun item => item.ident.text = name with
  | none =>
    refine .undefined fun item hitem => ?_
    simpa using List.find?_eq_none.mp hfind item (List.mem_reverse.mpr hitem)
  | some item =>
    obtain ⟨before, after, hstructs, htext, hafter⟩ := find?_reverse_eq_some_iff.mp hfind
    have hdef : ∃ struct, StructDef.ofItem? item = some struct := by
      rw [StructDef.ofItem?, Ident.name?, if_neg (htext ▸ hname)]
      exact ⟨_, rfl⟩
    obtain ⟨struct, hstruct⟩ := hdef
    rw [Option.bind_some, hstruct]
    simp only
    rw [fieldInputs_of_ofItem? hstruct]
    exact .last hstructs htext hafter

end AbiRecovery
