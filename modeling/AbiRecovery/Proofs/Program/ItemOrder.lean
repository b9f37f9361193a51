import AbiRecovery.Analysis
import Mathlib.Data.List.Basic
import Mathlib.Data.Set.Function

/-!
# The order of the items

The analysis of a file is what a single pass over its items gathers (`Pass.report_foldl`): one step
for each item, in the order of the file, with a catalog that later structs overwrite and a dispatch
that is kept as soon as it has entries.

Steps of items of different kinds commute (`Pass.step_comm`), and an item of no known kind is no
step at all. So an item can be taken out of the sequence and put in front of everything that stands
before it, as long as nothing of its kind is among that (`Pass.foldl_pull`), and two files with the
same items of each kind, in the same order, end in the same pass (`Pass.foldl_eq`).

A file is `Rearranged` if its recognised items are moved to other places without changing the order
of two of one kind. Then the items of each kind are the same (`Rearranged.ofKind_eq`).
-/

namespace AbiRecovery

namespace Tree

/-- The kinds of items that are recognised. -/
inductive ItemKind where
  | use
  | struct
  | enum
  | impl
  | function
deriving DecidableEq

/-- The kind of an item, if it is recognised. -/
def Item.kind? : Item → Option ItemKind
  | .use _ => some .use
  | .struct _ => some .struct
  | .enum _ => some .enum
  | .impl _ => some .impl
  | .function _ => some .function
  | .other => none

/-- The kind of the item at a position, if a recognised item is there. -/
def kindAt (items : List Item) (position : ℕ) : Option ItemKind :=
  items[position]?.bind Item.kind?

/-- The items of a kind, in order. -/
def ofKind (kind : ItemKind) (items : List Item) : List Item :=
  items.filter fun item => item.kind? = some kind

/-- The recognised items are moved to other places, and **each kind keeps its order**. Items that
are not recognised may be anywhere, before and after. -/
structure Rearranged (place : ℕ → ℕ) (items items' : List Item) : Prop where
  bijOn : Set.BijOn place {i | kindAt items i ≠ none} {i | kindAt items' i ≠ none}
  getElem? : ∀ i, kindAt items i ≠ none → items'[place i]? = items[i]?
  lt : ∀ i j, i < j → kindAt items i ≠ none → kindAt items i = kindAt items j → place i < place j

/-! ### Items of one kind -/

theorem ofKind_cons_self {kind : ItemKind} {item : Item} (h : item.kind? = some kind)
    (items : List Item) : ofKind kind (item :: items) = item :: ofKind kind items :=
  List.filter_cons_of_pos (by simpa using h)

theorem ofKind_cons_of_ne {kind : ItemKind} {item : Item} (h : item.kind? ≠ some kind)
    (items : List Item) : ofKind kind (item :: items) = ofKind kind items :=
  List.filter_cons_of_neg (by simpa using h)

theorem ofKind_append (kind : ItemKind) (first second : List Item) :
    ofKind kind (first ++ second) = ofKind kind first ++ ofKind kind second :=
  List.filter_append ..

theorem ofKind_around {items : List Item} {i : ℕ} (h : kindAt items i = none) (kind : ItemKind) :
    ofKind kind items = ofKind kind (items.take i) ++ ofKind kind (items.drop (i + 1)) := by
  by_cases hi : i < items.length
  · have hitem : items[i].kind? = none := by
      rw [kindAt, List.getElem?_eq_getElem hi] at h
      exact h
    have hsplit : items = items.take i ++ items[i] :: items.drop (i + 1) := by simp
    calc ofKind kind items = ofKind kind (items.take i ++ items[i] :: items.drop (i + 1)) := by
          rw [← hsplit]
      _ = _ := by rw [ofKind_append, ofKind_cons_of_ne (by simp [hitem])]
  · have htake : items.take i = items := List.take_of_length_le (by omega)
    have hdrop : items.drop (i + 1) = [] := List.drop_of_length_le (by omega)
    rw [htake, hdrop]
    exact (List.append_nil _).symm

theorem ofKind_set {items : List Item} {i : ℕ} {item : Item} (h : kindAt items i = none)
    (hitem : item.kind? = none) (kind : ItemKind) :
    ofKind kind (items.set i item) = ofKind kind items := by
  have hset : kindAt (items.set i item) i = none := by
    rw [kindAt, List.getElem?_set_self']
    cases items[i]? with
    | none => rfl
    | some old => exact hitem
  rw [ofKind_around hset, ofKind_around h, List.take_set_of_le (Nat.le_refl i),
    List.drop_set_of_lt (Nat.lt_succ_self i)]

theorem ofKind_eraseIdx {items : List Item} {i : ℕ} (h : kindAt items i = none)
    (kind : ItemKind) : ofKind kind (items.eraseIdx i) = ofKind kind items := by
  rw [List.eraseIdx_eq_take_drop_succ, ofKind_append, ← ofKind_around h]

/-- The positions of the items of a kind, in order. -/
def positions (kind : ItemKind) (items : List Item) : List ℕ :=
  (List.range items.length).filter fun i => kindAt items i = some kind

theorem mem_positions {kind : ItemKind} {items : List Item} {i : ℕ} :
    i ∈ positions kind items ↔ kindAt items i = some kind := by
  simp only [positions, List.mem_filter, List.mem_range, decide_eq_true_eq, and_iff_right_iff_imp]
  intro h
  by_contra hlength
  rw [kindAt, List.getElem?_eq_none (by omega)] at h
  cases h

theorem pairwise_positions (kind : ItemKind) (items : List Item) :
    (positions kind items).Pairwise (· < ·) :=
  List.Pairwise.filter _ List.pairwise_lt_range

theorem positions_cons (kind : ItemKind) (item : Item) (items : List Item) :
    positions kind (item :: items) =
      (if item.kind? = some kind then [0] else []) ++ (positions kind items).map (· + 1) := by
  have hrest : ((List.range items.length).map Nat.succ).filter
      (fun i => kindAt (item :: items) i = some kind) = (positions kind items).map (· + 1) := by
    rw [List.filter_map]
    rfl
  rw [positions, List.length_cons, List.range_succ_eq_map, List.filter_cons, hrest]
  by_cases h : item.kind? = some kind <;> simp [kindAt, h]

theorem filterMap_positions (kind : ItemKind) (items : List Item) :
    (positions kind items).filterMap (fun i => items[i]?) = ofKind kind items := by
  induction items with
  | nil => rfl
  | cons item items ih =>
    have hrest : ((positions kind items).map (· + 1)).filterMap (fun i => (item :: items)[i]?) =
        ofKind kind items := by
      rw [List.filterMap_map, ← ih]
      rfl
    rw [positions_cons, List.filterMap_append, hrest, ofKind, ofKind, List.filter_cons]
    by_cases h : item.kind? = some kind <;> simp [h]

namespace Rearranged

variable {place : ℕ → ℕ} {items items' : List Item}

theorem kindAt_eq (h : Rearranged place items items') {i : ℕ} (hi : kindAt items i ≠ none) :
    kindAt items' (place i) = kindAt items i := by
  rw [kindAt, h.getElem? i hi, kindAt]

theorem mem_map_positions (h : Rearranged place items items') (kind : ItemKind) (j : ℕ) :
    j ∈ (positions kind items).map place ↔ j ∈ positions kind items' := by
  rw [List.mem_map, mem_positions]
  constructor
  · rintro ⟨i, hi, rfl⟩
    rw [mem_positions] at hi
    rw [h.kindAt_eq (by simp [hi]), hi]
  · intro hj
    have hnone : kindAt items' j ≠ none := by simp [hj]
    obtain ⟨i, hi, rfl⟩ := h.bijOn.surjOn hnone
    refine ⟨i, ?_, rfl⟩
    rw [mem_positions, ← h.kindAt_eq hi, hj]

theorem pairwise_map_positions (h : Rearranged place items items') (kind : ItemKind) :
    ((positions kind items).map place).Pairwise (· < ·) := by
  rw [List.pairwise_map]
  refine (pairwise_positions kind items).imp_of_mem fun {i j} hi hj hij => ?_
  rw [mem_positions] at hi hj
  exact h.lt i j hij (by simp [hi]) (by rw [hi, hj])

theorem map_positions (h : Rearranged place items items') (kind : ItemKind) :
    (positions kind items).map place = positions kind items' := by
  -- both sequences of places ascend and have the same members
  have hmapped := h.pairwise_map_positions kind
  have hpositions := pairwise_positions kind items'
  have hperm : ((positions kind items).map place).Perm (positions kind items') :=
    (List.perm_ext_iff_of_nodup (hmapped.imp Nat.ne_of_lt) (hpositions.imp Nat.ne_of_lt)).mpr
      (h.mem_map_positions kind)
  exact hperm.eq_of_pairwise (fun i j _ _ hij hji => absurd hij (Nat.lt_asymm hji)) hmapped
    hpositions

theorem ofKind_eq (h : Rearranged place items items') (kind : ItemKind) :
    ofKind kind items' = ofKind kind items := by
  rw [← filterMap_positions kind items, ← filterMap_positions kind items', ← h.map_positions kind,
    List.filterMap_map]
  refine List.filterMap_congr fun i hi => ?_
  rw [mem_positions] at hi
  exact h.getElem? i (by simp [hi])

end Rearranged

end Tree

open AbiRecovery.Tree

/-! ### One pass over the items -/

/-- What has been gathered from the items so far. -/
structure Pass where
  paths : List String := []
  structs : Catalog := { }
  enums : List EnumDef := []
  dispatch : List DispatchEntry := []
  builders : List Builder := []
  events : List Event := []

namespace Pass

/-- Takes one more item. -/
def step (pass : Pass) : Item → Pass
  | .use tree => { pass with paths := (Imports.pathsOf [] tree).foldl Imports.record pass.paths }
  | .struct item =>
    { pass with
      structs := (StructDef.ofItem? item).toList.foldl Catalog.insert pass.structs
      events := pass.events ++ pass.structs.eventsFrom (StructDef.ofItem? item).toList }
  | .enum item => { pass with enums := pass.enums ++ (EnumDef.ofItem? item).toList }
  | .impl item =>
    -- A dispatch that has no entries does not keep a later block from being tried.
    { pass with
      dispatch := if pass.dispatch = [] then (Dispatch.ofImpl? item).getD [] else pass.dispatch }
  | .function item => { pass with builders := pass.builders ++ (Builder.ofFunction? item).toList }
  | .other => pass

/-- The analysis of what was gathered. -/
def analysis (pass : Pass) : Analysis :=
  let instructions := Assembly.instructions pass.structs pass.enums pass.dispatch pass.builders
  let source := Assembly.source pass.enums pass.dispatch
  { instructions := instructions
    source := source
    structs := pass.structs
    enums := pass.enums
    dispatch := pass.dispatch
    builders := pass.builders
    imports := Imports.ofPaths pass.paths
    diagnostics := Diagnostic.all pass.structs source instructions }

/-- The analysis, with everything that is reported. -/
def report (pass : Pass) : Analysis × List Event :=
  (pass.analysis, pass.events ++ pass.analysis.sourceEvents ++ [pass.analysis.summary])

/-! ### The pass and the analysis -/

theorem eventsFrom_append (catalog : Catalog) (first second : List StructDef) :
    catalog.eventsFrom (first ++ second) =
      catalog.eventsFrom first ++ (first.foldl Catalog.insert catalog).eventsFrom second := by
  induction first generalizing catalog with
  | nil => rfl
  | cons struct structs ih =>
    rw [List.cons_append, Catalog.eventsFrom, ih, Catalog.eventsFrom, List.append_assoc]
    rfl

theorem ofImpls_cons (item : ImplItem) (items : List ImplItem) :
    Dispatch.ofImpls (item :: items) =
      if (Dispatch.ofImpl? item).getD [] = [] then Dispatch.ofImpls items
      else (Dispatch.ofImpl? item).getD [] := by
  rw [Dispatch.ofImpls, List.findSome?_cons]
  cases Dispatch.ofImpl? item with
  | none => rfl
  | some entries => by_cases h : entries = [] <;> simp [Dispatch.ofImpls, Option.filter, h]

/-- **What a pass gathers** from the items, kind by kind. -/
theorem foldl_step (items : List Item) (pass : Pass) :
    items.foldl step pass =
      { paths := (Imports.pathsOfAll [] (File.mk items).uses).foldl Imports.record pass.paths
        structs := (Analysis.structDefs ⟨items⟩).foldl Catalog.insert pass.structs
        enums := pass.enums ++ (File.mk items).enums.filterMap EnumDef.ofItem?
        dispatch :=
          if pass.dispatch = [] then Dispatch.ofImpls (File.mk items).impls else pass.dispatch
        builders := pass.builders ++ (File.mk items).functions.filterMap Builder.ofFunction?
        events := pass.events ++ pass.structs.eventsFrom (Analysis.structDefs ⟨items⟩) } := by
  induction items generalizing pass with
  | nil =>
    obtain ⟨paths, structs, enums, dispatch, builders, events⟩ := pass
    simp [File.uses, File.enums, File.functions, File.impls, File.structs, Analysis.structDefs,
      Imports.pathsOfAll, Catalog.eventsFrom, Dispatch.ofImpls]
  | cons item items ih =>
    rw [List.foldl_cons, ih]
    cases item with
    | use tree =>
      have huses : (File.mk (.use tree :: items)).uses = tree :: (File.mk items).uses := rfl
      rw [huses, Imports.pathsOfAll, List.foldl_append]
      rfl
    | struct item =>
      have hstructs : Analysis.structDefs ⟨.struct item :: items⟩ =
          (StructDef.ofItem? item).toList ++ Analysis.structDefs ⟨items⟩ := by
        simp only [Analysis.structDefs, List.filterMap_eq_flatMap_toList]
        rfl
      rw [hstructs, List.foldl_append, eventsFrom_append, ← List.append_assoc]
      rfl
    | enum item =>
      have henums : (File.mk (.enum item :: items)).enums.filterMap EnumDef.ofItem? =
          (EnumDef.ofItem? item).toList ++ (File.mk items).enums.filterMap EnumDef.ofItem? := by
        simp only [List.filterMap_eq_flatMap_toList]
        rfl
      rw [henums, ← List.append_assoc]
      rfl
    | impl item =>
      have himpls : (File.mk (.impl item :: items)).impls = item :: (File.mk items).impls := rfl
      rw [himpls, ofImpls_cons]
      by_cases h : pass.dispatch = [] <;> simp only [step, h, if_true, if_false] <;> rfl
    | function item =>
      have hfunctions :
          (File.mk (.function item :: items)).functions.filterMap Builder.ofFunction? =
            (Builder.ofFunction? item).toList ++
              (File.mk items).functions.filterMap Builder.ofFunction? := by
        simp only [List.filterMap_eq_flatMap_toList]
        rfl
      rw [hfunctions, ← List.append_assoc]
      rfl
    | other => rfl

/-- **One pass** over the items gives the analysis of the file, and its reports. -/
theorem report_foldl (file : File) :
    (file.items.foldl step { }).report = (Analysis.ofFile file, Analysis.eventsOf file) := by
  rw [foldl_step]
  rfl

/-! ### Steps that commute -/

theorem step_comm {first second : Item} (h : first.kind? ≠ second.kind?) (pass : Pass) :
    (pass.step first).step second = (pass.step second).step first := by
  cases first <;> cases second
  case use.use | struct.struct | enum.enum | impl.impl | function.function | other.other =>
    exact absurd rfl h
  all_goals rfl

theorem step_of_kind?_eq_none {item : Item} (h : item.kind? = none) (pass : Pass) :
    pass.step item = pass := by
  cases item with
  | other => rfl
  | use | struct | enum | impl | function => cases h

theorem foldl_of_unrecognised {items : List Item} (h : ∀ item ∈ items, item.kind? = none)
    (pass : Pass) : items.foldl step pass = pass := by
  induction items generalizing pass with
  | nil => rfl
  | cons item items ih =>
    rw [List.forall_mem_cons] at h
    rw [List.foldl_cons, step_of_kind?_eq_none h.1, ih h.2]

/-- An item may be taken before all that stands in front of it, if nothing of its kind does. -/
theorem foldl_pull {item : Item} {before : List Item}
    (h : ∀ earlier ∈ before, earlier.kind? ≠ item.kind?) (after : List Item) (pass : Pass) :
    (before ++ item :: after).foldl step pass = (before ++ after).foldl step (pass.step item) := by
  induction before generalizing pass with
  | nil => rfl
  | cons first before ih =>
    rw [List.forall_mem_cons] at h
    rw [List.cons_append, List.foldl_cons, ih h.2, step_comm h.1]
    rfl

/-- **The kinds are independent**: what a pass gathers depends on the items of each kind, and not on
what stands between them. -/
theorem foldl_eq {items items' : List Item} (h : ∀ kind, ofKind kind items' = ofKind kind items)
    (pass : Pass) : items'.foldl step pass = items.foldl step pass := by
  -- Each recognised item of the one list is pulled to the front of the other.
  induction items generalizing items' pass with
  | nil =>
    refine foldl_of_unrecognised (fun item hitem => ?_) pass
    by_contra hkind
    obtain ⟨kind, hkind⟩ := Option.ne_none_iff_exists'.mp hkind
    have hmem : item ∈ ofKind kind items' := by simp [ofKind, hitem, hkind]
    rw [h kind] at hmem
    cases hmem
  | cons item items ih =>
    rw [List.foldl_cons]
    cases hitem : item.kind? with
    | none =>
      rw [step_of_kind?_eq_none hitem]
      refine ih (fun kind => ?_) pass
      rw [h kind, ofKind_cons_of_ne (by simp [hitem])]
    | some own =>
      have hown := h own
      rw [ofKind_cons_self hitem, ofKind, List.filter_eq_cons_iff] at hown
      obtain ⟨before, after, rfl, hbefore, -, hafter⟩ := hown
      simp only [decide_eq_true_eq] at hbefore
      rw [foldl_pull (by rwa [hitem])]
      refine ih (fun kind => ?_) (pass.step item)
      have hkind := h kind
      by_cases heq : kind = own
      · subst heq
        have hnone : ofKind kind before = [] := by simpa [ofKind] using hbefore
        rw [ofKind_append, hnone, List.nil_append]
        exact hafter
      · have hne : item.kind? ≠ some kind := by simpa [hitem] using Ne.symm heq
        rwa [ofKind_append, ofKind_cons_of_ne hne, ← ofKind_append, ofKind_cons_of_ne hne] at hkind

end Pass

theorem Analysis.eq_of_ofKind {file file' : File}
    (h : ∀ kind, ofKind kind file'.items = ofKind kind file.items) :
    Analysis.ofFile file' = Analysis.ofFile file ∧
      Analysis.eventsOf file' = Analysis.eventsOf file := by
  have hreport : (file'.items.foldl Pass.step { }).report =
      (file.items.foldl Pass.step { }).report := by rw [Pass.foldl_eq h]
  rwa [Pass.report_foldl, Pass.report_foldl, Prod.mk.injEq] at hreport

/-- **Only the order within a kind matters.** A file is analysed as by a single pass over its items
in their order; and if its recognised items are rearranged, each kind in its own order, and any
others are put in or left out, then neither the analysis nor what is reported changes. -/
theorem analysis_of_rearranged (file : File) :
    (file.items.foldl Pass.step { }).report = (Analysis.ofFile file, Analysis.eventsOf file) ∧
      ∀ (file' : File) (place : ℕ → ℕ), Rearranged place file.items file'.items →
        Analysis.ofFile file' = Analysis.ofFile file ∧
          Analysis.eventsOf file' = Analysis.eventsOf file :=
  ⟨Pass.report_foldl file, fun _ _ h => Analysis.eq_of_ofKind h.ofKind_eq⟩

/-- A struct that is defined twice, with an enum in between. -/
def redefinition : File :=
  ⟨[.struct ⟨default, ⟨"Pair"⟩, .unit⟩, .enum ⟨default, ⟨"Tag"⟩, []⟩, .other,
    .struct ⟨default, ⟨"Pair"⟩, .named []⟩]⟩

/-- The same definitions, with the enum in front. -/
def redefinitionRearranged : File :=
  ⟨[.enum ⟨default, ⟨"Tag"⟩, []⟩, .struct ⟨default, ⟨"Pair"⟩, .unit⟩,
    .struct ⟨default, ⟨"Pair"⟩, .named []⟩, .other, .other]⟩

/-- The places of the definitions. -/
def redefinitionPlace : ℕ → ℕ
  | 0 => 1
  | 1 => 0
  | i => i - 1

theorem kindAt_redefinition {i : ℕ} (h : kindAt redefinition.items i ≠ none) :
    i = 0 ∨ i = 1 ∨ i = 3 := by
  rcases i with _ | _ | _ | _ | i <;> simp_all [kindAt, redefinition, Item.kind?]

theorem kindAt_redefinitionRearranged {i : ℕ}
    (h : kindAt redefinitionRearranged.items i ≠ none) : i = 0 ∨ i = 1 ∨ i = 2 := by
  rcases i with _ | _ | _ | _ | _ | i <;> simp_all [kindAt, redefinitionRearranged, Item.kind?]

theorem rearranged_redefinition :
    Rearranged redefinitionPlace redefinition.items redefinitionRearranged.items where
  bijOn := by
    refine ⟨fun i hi => ?_, fun i hi j hj hij => ?_, fun j hj => ?_⟩
    · rcases kindAt_redefinition hi with rfl | rfl | rfl <;> exact Option.some_ne_none _
    · rcases kindAt_redefinition hi with rfl | rfl | rfl <;>
        rcases kindAt_redefinition hj with rfl | rfl | rfl <;> simp_all [redefinitionPlace]
    · rcases kindAt_redefinitionRearranged hj with rfl | rfl | rfl
      · exact ⟨1, Option.some_ne_none _, rfl⟩
      · exact ⟨0, Option.some_ne_none _, rfl⟩
      · exact ⟨3, Option.some_ne_none _, rfl⟩
  getElem? i hi := by rcases kindAt_redefinition hi with rfl | rfl | rfl <;> rfl
  lt i j hij hi hkind := by
    have hj : kindAt redefinition.items j ≠ none := hkind ▸ hi
    rcases kindAt_redefinition hi with rfl | rfl | rfl <;>
      rcases kindAt_redefinition hj with rfl | rfl | rfl <;>
        simp_all [kindAt, redefinition, redefinitionPlace, Item.kind?]

theorem redefinition_same_analysis :
    Rearranged redefinitionPlace redefinition.items redefinitionRearranged.items ∧
      Analysis.ofFile redefinitionRearranged = Analysis.ofFile redefinition ∧
      Analysis.eventsOf redefinitionRearranged = Analysis.eventsOf redefinition :=
  ⟨rearranged_redefinition,
    (analysis_of_rearranged redefinition).2 redefinitionRearranged _ rearranged_redefinition⟩

end AbiRecovery
