import AbiRecovery.Program.Imports
import AbiRecovery.Proofs.Program.CatalogHistory

/-!
# Groups of imports

A group of imports is short for its members, each with the names in front of the group. Written out
in full (`expand`), a tree is a list of chains: names one after the other, and a leaf at the end.
The paths of a tree are the names of its chains in order (`pathsOf_eq`), so it does not matter
whether a tree is written with groups or without them.

A path is recorded when it is seen for the first time, and a single name is not recorded
(`record_appearances`), so the recorded paths are the first appearances in what the chains write
(`paths_ofTrees`). They are those of the leaves to which the trees lead (`LeadsTo`,
`exists_chain_iff`).
-/

namespace AbiRecovery

open AbiRecovery.Tree

namespace Tree.UseTree

/-! ### Trees without groups -/

mutual

/-- An import tree **written out in full**: each group is replaced by a copy of what stands in front
of it for each of its members. -/
def expand : UseTree → List UseTree
  | .path ident tree => tree.expand.map (.path ident)
  | .name ident => [.name ident]
  | .rename ident newName => [.rename ident newName]
  | .glob => [.glob]
  | .group items => expandAll items
  | .other => [.other]

/-- Several import trees written out in full. -/
def expandAll : List UseTree → List UseTree
  | [] => []
  | tree :: trees => tree.expand ++ expandAll trees

end

/-- There is no group in a tree. -/
inductive GroupFree : UseTree → Prop
  | path {ident : Ident} {tree : UseTree} : GroupFree tree → GroupFree (.path ident tree)
  | name (ident : Ident) : GroupFree (.name ident)
  | rename (ident newName : Ident) : GroupFree (.rename ident newName)
  | glob : GroupFree .glob
  | other : GroupFree .other

/-- The leaf at the end of a tree without groups. -/
def leaf : UseTree → UseTree
  | .path _ tree => tree.leaf
  | tree => tree

/-- The names in front of the leaf of a tree without groups. -/
def front : UseTree → List String
  | .path ident tree => ident.name?.toList ++ tree.front
  | _ => []

/-- The name of a leaf. A rename has the name that it renames, and a glob has none. -/
def ownName : UseTree → Option String
  | .name ident => ident.name?
  | .rename ident _ => ident.name?
  | _ => none

/-- The names of a tree without groups. -/
def names (tree : UseTree) : List String :=
  tree.front ++ tree.leaf.ownName.toList

/-- A tree **leads to** a leaf along the names in front of it. -/
inductive LeadsTo : UseTree → List String → UseTree → Prop
  | path {ident : Ident} {tree leaf : UseTree} {front : List String} :
    LeadsTo tree front leaf → LeadsTo (.path ident tree) (ident.name?.toList ++ front) leaf
  | name (ident : Ident) : LeadsTo (.name ident) [] (.name ident)
  | rename (ident newName : Ident) : LeadsTo (.rename ident newName) [] (.rename ident newName)
  | glob : LeadsTo .glob [] .glob
  | group {items : List UseTree} {tree leaf : UseTree} {front : List String} :
    tree ∈ items → LeadsTo tree front leaf → LeadsTo (.group items) front leaf
  | other : LeadsTo .other [] .other

theorem mem_expandAll {chain : UseTree} {trees : List UseTree} :
    chain ∈ expandAll trees ↔ ∃ tree ∈ trees, chain ∈ tree.expand := by
  induction trees with
  | nil => simp [expandAll]
  | cons tree trees ih => rw [expandAll, List.mem_append, ih, List.exists_mem_cons_iff]

theorem expand_of_groupFree {tree : UseTree} (h : tree.GroupFree) : tree.expand = [tree] := by
  induction h with
  | path _ ih => rw [expand, ih, List.map_singleton]
  | name | rename | glob | other => rfl

theorem expandAll_of_groupFree {trees : List UseTree} (h : ∀ tree ∈ trees, tree.GroupFree) :
    expandAll trees = trees := by
  induction trees with
  | nil => rfl
  | cons tree trees ih =>
    have hrest := ih fun later hlater => h later (List.mem_cons_of_mem _ hlater)
    rw [expandAll, expand_of_groupFree (h tree List.mem_cons_self), hrest, List.singleton_append]

mutual

/-- **A chain** of a tree has no groups, and the tree leads to its leaf. -/
theorem chain_of_mem_expand : ∀ (tree : UseTree) {chain : UseTree},
    chain ∈ tree.expand → chain.GroupFree ∧ tree.LeadsTo chain.front chain.leaf
  | .path ident tree, chain, h => by
    obtain ⟨rest, hrest, rfl⟩ := List.mem_map.mp h
    obtain ⟨hfree, hleads⟩ := chain_of_mem_expand tree hrest
    exact ⟨.path hfree, .path hleads⟩
  | .name ident, chain, h => by
    rw [List.mem_singleton.mp h]
    exact ⟨.name ident, .name ident⟩
  | .rename ident newName, chain, h => by
    rw [List.mem_singleton.mp h]
    exact ⟨.rename ident newName, .rename ident newName⟩
  | .glob, chain, h => by
    rw [List.mem_singleton.mp h]
    exact ⟨.glob, .glob⟩
  | .group items, chain, h => by
    obtain ⟨hfree, tree, htree, hleads⟩ := chain_of_mem_expandAll items h
    exact ⟨hfree, .group htree hleads⟩
  | .other, chain, h => by
    rw [List.mem_singleton.mp h]
    exact ⟨.other, .other⟩

theorem chain_of_mem_expandAll : ∀ (trees : List UseTree) {chain : UseTree},
    chain ∈ expandAll trees →
      chain.GroupFree ∧ ∃ tree ∈ trees, tree.LeadsTo chain.front chain.leaf
  | [], _, h => absurd h List.not_mem_nil
  | tree :: trees, chain, h => by
    rcases List.mem_append.mp h with hfirst | hrest
    · obtain ⟨hfree, hleads⟩ := chain_of_mem_expand tree hfirst
      exact ⟨hfree, tree, List.mem_cons_self, hleads⟩
    · obtain ⟨hfree, later, hlater, hleads⟩ := chain_of_mem_expandAll trees hrest
      exact ⟨hfree, later, List.mem_cons_of_mem _ hlater, hleads⟩

end

theorem LeadsTo.exists_chain {tree leaf : UseTree} {front : List String}
    (h : tree.LeadsTo front leaf) :
    ∃ chain ∈ tree.expand, chain.front = front ∧ chain.leaf = leaf := by
  induction h with
  | @path ident tree leaf front _ ih =>
    obtain ⟨chain, hchain, rfl, rfl⟩ := ih
    exact ⟨.path ident chain, List.mem_map_of_mem hchain, rfl, rfl⟩
  | name | rename | glob | other => exact ⟨_, List.mem_singleton_self _, rfl, rfl⟩
  | group htree _ ih =>
    obtain ⟨chain, hchain, hboth⟩ := ih
    exact ⟨chain, mem_expandAll.mpr ⟨_, htree, hchain⟩, hboth⟩

theorem exists_chain_iff (trees : List UseTree) (has : List String → UseTree → Prop) :
    (∃ chain ∈ expandAll trees, has chain.front chain.leaf) ↔
      ∃ tree ∈ trees, ∃ front leaf, tree.LeadsTo front leaf ∧ has front leaf := by
  constructor
  · rintro ⟨chain, hchain, hhas⟩
    obtain ⟨-, tree, htree, hleads⟩ := chain_of_mem_expandAll trees hchain
    exact ⟨tree, htree, _, _, hleads, hhas⟩
  · rintro ⟨tree, htree, front, leaf, hleads, hhas⟩
    obtain ⟨chain, hchain, rfl, rfl⟩ := hleads.exists_chain
    exact ⟨chain, mem_expandAll.mpr ⟨tree, htree, hchain⟩, hhas⟩

end Tree.UseTree

namespace Imports

open UseTree

/-! ### Recorded paths -/

mutual

theorem pathsOf_eq (base : List String) : ∀ tree : UseTree,
    pathsOf base tree = tree.expand.map fun chain => base ++ chain.names
  | .path ident tree => by
    rw [pathsOf, pathsOf_eq, expand, List.map_map]
    refine List.map_congr_left fun chain _ => ?_
    simp only [Function.comp_apply, names, front, leaf, List.append_assoc]
  | .name _ => rfl
  | .rename _ _ => rfl
  | .glob => by
    rw [pathsOf, expand, List.map_singleton]
    simp [names, front, leaf, ownName]
  | .group items => by rw [pathsOf, expand, pathsOfAll_eq]
  | .other => by
    rw [pathsOf, expand, List.map_singleton]
    simp [names, front, leaf, ownName]

theorem pathsOfAll_eq (base : List String) : ∀ trees : List UseTree,
    pathsOfAll base trees = (expandAll trees).map fun chain => base ++ chain.names
  | [] => rfl
  | tree :: trees => by rw [pathsOfAll, pathsOf_eq, pathsOfAll_eq, expandAll, List.map_append]

end

/-- The path that names write, unless it is a single name. -/
def written? (names : List String) : Option String :=
  if names.length < 2 then none else some ("::".intercalate names)

/-- The paths that chains write, in order. -/
def writtenPaths (chains : List UseTree) : List String :=
  chains.filterMap fun chain => written? chain.names

theorem record_appearances (earlier names : List String) :
    record (appearances 0 earlier) names = appearances 0 (earlier ++ (written? names).toList) := by
  by_cases hshort : names.length < 2
  · rw [record, if_pos (Or.inl hshort), written?, if_pos hshort, Option.toList_none,
      List.append_nil]
  · have hseen : (names.length < 2 ∨ "::".intercalate names ∈ appearances 0 earlier) ↔
        ¬ earlier.count ("::".intercalate names) = 0 := by
      rw [mem_appearances]
      omega
    rw [record, written?, if_neg hshort, Option.toList_some, appearances_concat]
    simp only [hseen]
    split_ifs with hnew
    · rfl
    · rw [List.append_nil]

/-- **The recorded paths** are those that are written, each where it is seen for the first time. -/
theorem paths_ofTrees (trees : List UseTree) :
    (ofTrees trees).paths = appearances 0 (writtenPaths (expandAll trees)) := by
  show (pathsOfAll [] trees).foldl record [] = _
  rw [pathsOfAll_eq, List.foldl_map, writtenPaths]
  induction expandAll trees using List.reverseRecOn with
  | nil => rfl
  | append_singleton chains chain ih =>
    rw [List.foldl_append, ih, List.foldl_cons, List.foldl_nil, List.nil_append,
      record_appearances, List.filterMap_append]
    cases hwritten : written? chain.names <;> simp [hwritten]

theorem mem_writtenPaths {path : String} {chains : List UseTree} :
    path ∈ writtenPaths chains ↔
      ∃ chain ∈ chains, 2 ≤ chain.names.length ∧ "::".intercalate chain.names = path := by
  have hwritten : ∀ names : List String, written? names = some path ↔
      2 ≤ names.length ∧ "::".intercalate names = path := by
    intro names
    rw [written?, Option.ite_none_left_eq_some, Option.some.injEq, Nat.not_lt]
  simp only [writtenPaths, List.mem_filterMap, hwritten]

theorem mem_paths_ofTrees {path : String} {trees : List UseTree} :
    path ∈ (ofTrees trees).paths ↔ path ∈ writtenPaths (expandAll trees) := by
  rw [paths_ofTrees, mem_appearances, List.count_pos_iff]

theorem ofTrees_eq_of_paths_eq {first second : List UseTree}
    (h : (ofTrees first).paths = (ofTrees second).paths) : ofTrees first = ofTrees second :=
  congrArg ofPaths h

/-- **Groups are shorthand.** The imports of a sequence of trees are those of the trees that are
written out in full. Their paths are in the order in which they are seen for the first time, without
repetitions, and they are the paths of the leaves to which the trees lead, unless these have a
single name: a rename has the path of the name that it renames, and a glob that of the names in
front of it. A well-known path is noted exactly if it is among them. -/
theorem groups_are_shorthand (trees : List UseTree) :
    let expanded := expandAll trees
    let imports := ofTrees trees
    (∀ tree ∈ expanded, tree.GroupFree) ∧ ofTrees expanded = imports ∧
      imports.paths = appearances 0 (writtenPaths expanded) ∧ imports.paths.Nodup ∧
      (∀ path, path ∈ imports.paths ↔
        ∃ tree ∈ trees, ∃ front leaf, tree.LeadsTo front leaf ∧
          2 ≤ (front ++ leaf.ownName.toList).length ∧
            "::".intercalate (front ++ leaf.ownName.toList) = path) ∧
      (imports.hasInstruction = true ↔
        "solana_program::instruction::Instruction" ∈ imports.paths) ∧
      (imports.hasAccountMeta = true ↔
        "solana_program::instruction::AccountMeta" ∈ imports.paths) ∧
      (imports.hasProgramError = true ↔
        "solana_program::program_error::ProgramError" ∈ imports.paths) ∧
      (imports.hasPubkey = true ↔ "solana_program::pubkey::Pubkey" ∈ imports.paths) := by
  intro expanded imports
  have hfree : ∀ tree ∈ expanded, tree.GroupFree := fun tree htree =>
    (chain_of_mem_expandAll trees htree).1
  have hpaths : imports.paths = appearances 0 (writtenPaths expanded) := paths_ofTrees trees
  refine ⟨hfree, ?_, hpaths, ?_, fun path => ?_, decide_eq_true_iff, decide_eq_true_iff,
    decide_eq_true_iff, decide_eq_true_iff⟩
  · refine ofTrees_eq_of_paths_eq ?_
    rw [paths_ofTrees, expandAll_of_groupFree hfree]
    exact hpaths.symm
  · rw [hpaths]
    exact nodup_appearances 0 _
  · rw [mem_paths_ofTrees, mem_writtenPaths]
    exact exists_chain_iff trees fun front leaf =>
      2 ≤ (front ++ leaf.ownName.toList).length ∧
        "::".intercalate (front ++ leaf.ownName.toList) = path

-- `use a::{b::{c as d, *, c}, {}}` and `use b;`
example :
    (ofTrees [.path ⟨"a"⟩ (.group [.path ⟨"b"⟩ (.group [.rename ⟨"c"⟩ ⟨"d"⟩, .glob, .name ⟨"c"⟩]),
      .group []]), .name ⟨"b"⟩]).paths = ["a::b::c", "a::b"] := by decide

end Imports

end AbiRecovery
