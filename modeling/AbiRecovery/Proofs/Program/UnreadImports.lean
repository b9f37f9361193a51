import AbiRecovery.Proofs.Program.ImportGroups

/-!
# Leaves of imports that are not read

A leaf of an import tree is not read if its kind is not recognised, or if it is a name or a rename
whose identifier could not be read. Without such leaves a tree has the same chains but for those
that end in one (`expandAll_pruneAll`).

A leaf that is not read is not skipped: it counts as a glob (`pathsOf_withGlobs`), so the names in
front of it are an import of their own, unless there is at most one (`mem_paths_iff_pruneAll`). The
readable leaves give the other paths (`mem_paths_pruneAll`).
-/

namespace AbiRecovery

open AbiRecovery.Tree

namespace Tree.UseTree

/-- Whether a leaf is read. -/
def isRead : UseTree → Bool
  | .name ident => ident.text ≠ ""
  | .rename ident _ => ident.text ≠ ""
  | .other => false
  | _ => true

mutual

/-- A tree **without the leaves that are not read**, if anything is left of it. -/
def prune? : UseTree → Option UseTree
  | .path ident tree => tree.prune?.map (.path ident)
  | .name ident => if ident.text = "" then none else some (.name ident)
  | .rename ident newName => if ident.text = "" then none else some (.rename ident newName)
  | .glob => some .glob
  | .group items => some (.group (pruneAll items))
  | .other => none

/-- Trees without the leaves that are not read. -/
def pruneAll : List UseTree → List UseTree
  | [] => []
  | tree :: trees => tree.prune?.toList ++ pruneAll trees

end

mutual

/-- A tree with a glob in the place of each leaf that is not read. -/
def withGlobs : UseTree → UseTree
  | .path ident tree => .path ident tree.withGlobs
  | .name ident => if ident.text = "" then .glob else .name ident
  | .rename ident newName => if ident.text = "" then .glob else .rename ident newName
  | .glob => .glob
  | .group items => .group (withGlobsAll items)
  | .other => .glob

/-- Trees with a glob in the place of each leaf that is not read. -/
def withGlobsAll : List UseTree → List UseTree
  | [] => []
  | tree :: trees => tree.withGlobs :: withGlobsAll trees

end

theorem expandAll_append (first second : List UseTree) :
    expandAll (first ++ second) = expandAll first ++ expandAll second := by
  induction first with
  | nil => rfl
  | cons tree first ih => rw [List.cons_append, expandAll, ih, expandAll, List.append_assoc]

theorem expandAll_singleton (tree : UseTree) : expandAll [tree] = tree.expand := by
  rw [expandAll, expandAll, List.append_nil]

mutual

theorem expandAll_prune? : ∀ tree : UseTree,
    expandAll tree.prune?.toList = tree.expand.filter fun chain => chain.leaf.isRead
  | .path ident tree => by
    have hleaf : (tree.expand.map (UseTree.path ident)).filter (fun chain => chain.leaf.isRead) =
        (tree.expand.filter fun chain => chain.leaf.isRead).map (UseTree.path ident) :=
      List.filter_map
    rw [prune?, expand, hleaf, ← expandAll_prune? tree]
    cases tree.prune? with
    | none => rfl
    | some pruned =>
      rw [Option.map_some, Option.toList_some, Option.toList_some, expandAll_singleton,
        expandAll_singleton, expand]
  | .name ident => by
    rw [prune?, expand]
    split_ifs with hempty <;> simp [expandAll, expand, leaf, isRead, hempty]
  | .rename ident newName => by
    rw [prune?, expand]
    split_ifs with hempty <;> simp [expandAll, expand, leaf, isRead, hempty]
  | .glob => rfl
  | .group items => by
    rw [prune?, Option.toList_some, expandAll_singleton, expand, expand, expandAll_pruneAll]
  | .other => rfl

/-- **Without the leaves that are not read** the chains are those that end in a readable leaf. -/
theorem expandAll_pruneAll : ∀ trees : List UseTree,
    expandAll (pruneAll trees) = (expandAll trees).filter fun chain => chain.leaf.isRead
  | [] => rfl
  | tree :: trees => by
    rw [pruneAll, expandAll_append, expandAll_prune?, expandAll_pruneAll, expandAll,
      List.filter_append]

end

end Tree.UseTree

namespace Imports

open UseTree

mutual

theorem pathsOf_withGlobs (base : List String) : ∀ tree : UseTree,
    pathsOf base tree.withGlobs = pathsOf base tree
  | .path ident tree => by rw [withGlobs, pathsOf, pathsOf_withGlobs, pathsOf]
  | .name ident => by
    rw [withGlobs]
    split_ifs with hempty <;> simp [pathsOf, Ident.name?, hempty]
  | .rename ident newName => by
    rw [withGlobs]
    split_ifs with hempty <;> simp [pathsOf, Ident.name?, hempty]
  | .glob => rfl
  | .group items => by rw [withGlobs, pathsOf, pathsOfAll_withGlobsAll, pathsOf]
  | .other => rfl

/-- **A leaf that is not read** counts as a glob. -/
theorem pathsOfAll_withGlobsAll (base : List String) : ∀ trees : List UseTree,
    pathsOfAll base (withGlobsAll trees) = pathsOfAll base trees
  | [] => rfl
  | tree :: trees => by
    rw [withGlobsAll, pathsOfAll, pathsOf_withGlobs, pathsOfAll_withGlobsAll, pathsOfAll]

end

/-! ### Compared with the readable leaves -/

theorem names_of_unread {chain : UseTree} (h : chain.leaf.isRead = false) :
    chain.names = chain.front := by
  have hnone : chain.leaf.ownName = none := by
    cases hleaf : chain.leaf with
    | name ident | rename ident =>
      rw [hleaf] at h
      simpa [isRead, ownName, Ident.name?] using h
    | path | glob | group | other => rfl
  rw [names, hnone, Option.toList_none, List.append_nil]

theorem mem_paths_pruneAll {path : String} {trees : List UseTree} :
    path ∈ (ofTrees (pruneAll trees)).paths ↔
      ∃ tree ∈ trees, ∃ front leaf, tree.LeadsTo front leaf ∧ leaf.isRead = true ∧
        2 ≤ (front ++ leaf.ownName.toList).length ∧
          "::".intercalate (front ++ leaf.ownName.toList) = path := by
  rw [mem_paths_ofTrees, mem_writtenPaths, expandAll_pruneAll, ← exists_chain_iff trees
    fun front leaf => leaf.isRead = true ∧ 2 ≤ (front ++ leaf.ownName.toList).length ∧
      "::".intercalate (front ++ leaf.ownName.toList) = path]
  simp only [List.mem_filter, and_assoc]
  rfl

theorem mem_paths_iff_pruneAll {path : String} {trees : List UseTree} :
    path ∈ (ofTrees trees).paths ↔ path ∈ (ofTrees (pruneAll trees)).paths ∨
      ∃ tree ∈ trees, ∃ front leaf, tree.LeadsTo front leaf ∧ leaf.isRead = false ∧
        2 ≤ front.length ∧ "::".intercalate front = path := by
  rw [mem_paths_ofTrees, mem_paths_ofTrees, mem_writtenPaths, mem_writtenPaths,
    expandAll_pruneAll, ← exists_chain_iff trees fun front leaf =>
      leaf.isRead = false ∧ 2 ≤ front.length ∧ "::".intercalate front = path]
  constructor
  · rintro ⟨chain, hchain, hwritten⟩
    cases hread : chain.leaf.isRead with
    | true => exact Or.inl ⟨chain, List.mem_filter.mpr ⟨hchain, hread⟩, hwritten⟩
    | false =>
      rw [names_of_unread hread] at hwritten
      exact Or.inr ⟨chain, hchain, hread, hwritten⟩
  · rintro (⟨chain, hchain, hwritten⟩ | ⟨chain, hchain, hread, hwritten⟩)
    · exact ⟨chain, (List.mem_filter.mp hchain).1, hwritten⟩
    · rw [← names_of_unread hread] at hwritten
      exact ⟨chain, hchain, hwritten⟩

theorem ofTrees_pruneAll {trees : List UseTree}
    (h : ∀ tree ∈ trees, ∀ front leaf, tree.LeadsTo front leaf → leaf.isRead = false →
      front.length < 2) : ofTrees (pruneAll trees) = ofTrees trees := by
  have hwritten : writtenPaths (expandAll (pruneAll trees)) = writtenPaths (expandAll trees) := by
    rw [expandAll_pruneAll, writtenPaths, writtenPaths, List.filterMap_filter]
    refine List.filterMap_congr fun chain hchain => ?_
    obtain ⟨-, tree, htree, hleads⟩ := chain_of_mem_expandAll trees hchain
    cases hread : chain.leaf.isRead with
    | true => rfl
    | false =>
      have hshort := h tree htree chain.front chain.leaf hleads hread
      rw [written?, names_of_unread hread, if_pos hshort]
      rfl
  refine ofTrees_eq_of_paths_eq ?_
  rw [paths_ofTrees, paths_ofTrees, hwritten]

/-- **A leaf that is not read is an import.** It counts as a glob: the imports are those of the
trees with a glob in its place. So besides the paths of the readable leaves, which are all that is
left without the others, there are the paths of the names in front of a leaf that is not read, if
there are two of them or more. If there are never two, the imports are those without such leaves. -/
theorem unread_leaves_count_as_globs (trees : List UseTree) :
    ofTrees (withGlobsAll trees) = ofTrees trees ∧
      (∀ path, path ∈ (ofTrees (pruneAll trees)).paths ↔
        ∃ tree ∈ trees, ∃ front leaf, tree.LeadsTo front leaf ∧ leaf.isRead = true ∧
          2 ≤ (front ++ leaf.ownName.toList).length ∧
            "::".intercalate (front ++ leaf.ownName.toList) = path) ∧
      (∀ path, path ∈ (ofTrees trees).paths ↔ path ∈ (ofTrees (pruneAll trees)).paths ∨
        ∃ tree ∈ trees, ∃ front leaf, tree.LeadsTo front leaf ∧ leaf.isRead = false ∧
          2 ≤ front.length ∧ "::".intercalate front = path) ∧
      ((∀ tree ∈ trees, ∀ front leaf, tree.LeadsTo front leaf → leaf.isRead = false →
        front.length < 2) → ofTrees (pruneAll trees) = ofTrees trees) := by
  refine ⟨?_, fun path => mem_paths_pruneAll, fun path => mem_paths_iff_pruneAll,
    ofTrees_pruneAll⟩
  unfold ofTrees
  rw [pathsOfAll_withGlobsAll]

/-- An import whose last part is of a kind that is not recognised. -/
def pubkeyTree : UseTree :=
  .path ⟨"solana_program"⟩ (.path ⟨"pubkey"⟩ (.path ⟨"Pubkey"⟩ .other))

/-- A leaf of an unrecognised kind below the path of the key type counts as an import of this type,
although nothing is left of the tree without it. -/
theorem unread_leaf_imports_key :
    pruneAll [pubkeyTree] = [] ∧ ofTrees (pruneAll [pubkeyTree]) = { } ∧
      ofTrees [pubkeyTree] =
        { hasPubkey := true, paths := ["solana_program::pubkey::Pubkey"] } :=
  ⟨rfl, by decide, by decide⟩

end Imports

end AbiRecovery
