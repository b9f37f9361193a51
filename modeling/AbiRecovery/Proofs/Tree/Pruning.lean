import AbiRecovery.Proofs.Tree.Document

/-!
# Keys that are not read

The schema of the tree names every key that a reader looks up (`knownKeys`). `prune` takes other
keys away, from every object of a value and at every depth. What a reader finds under a known key is
then the pruned value of what it found before, also where a node is written as a list
(`fields?_prune`, `taggedFields?_prune`). By induction on the depth of a value, every reader gives
the same node for it before and after (`Kind.read_prune`), and a document that is accepted stays
accepted, with the same file.

A document can be refused for being too deep where nothing is read. Pruning may repair it, so the
statement about texts leaves such documents out.
-/

namespace AbiRecovery.Tree

open Json

/-! ### Known keys -/

/-- All kinds of nodes without a tag. -/
def Record.all : List Record :=
  [.file, .ident, .field, .signature, .path, .pathSegment, .fieldValue, .arm, .macroCall, .block]

/-- All kinds of nodes with a tag. -/
def Family.all : List Family :=
  [.item, .useTree, .visibility, .fields, .enumEntry, .implEntry, .param, .typeRef, .pathArguments,
    .stmt, .pat, .expr, .lit, .tokenTree]

theorem Record.mem_all (record : Record) : record ∈ Record.all := by
  cases record <;> simp [Record.all]

theorem Family.mem_all (family : Family) : family ∈ Family.all := by
  cases family <;> simp [Family.all]

theorem Family.variant_of_mem (family : Family) {row : String × Variant family.Node}
    (h : row ∈ family.variants) : family.variant row.1 = row.2 := by
  have hrows : family.variants.Forall fun row => family.variant row.1 = row.2 := by
    cases family <;> simp only [variants, List.Forall] <;> and_intros
    all_goals rfl
  exact List.forall_iff_forall_mem.mp hrows row h

/-- The keys that are read anywhere in a tree. -/
def knownKeys : List String :=
  tagKey :: (Record.all.flatMap (fun record => record.variant.keys) ++
    Family.all.flatMap fun family => family.variants.flatMap fun row => row.2.keys)

theorem mem_knownKeys {key : String} :
    key ∈ knownKeys ↔ key = tagKey ∨ (∃ record : Record, key ∈ record.variant.keys) ∨
      ∃ (family : Family) (tag : String), key ∈ (family.variant tag).keys := by
  rw [knownKeys, List.mem_cons, List.mem_append, List.mem_flatMap, List.mem_flatMap]
  refine or_congr Iff.rfl (or_congr ⟨?_, ?_⟩ ⟨?_, ?_⟩)
  · rintro ⟨record, -, hkey⟩
    exact ⟨record, hkey⟩
  · rintro ⟨record, hkey⟩
    exact ⟨record, record.mem_all, hkey⟩
  · rintro ⟨family, -, hkey⟩
    obtain ⟨row, hrow, hkey⟩ := List.mem_flatMap.mp hkey
    exact ⟨family, row.1, by rwa [family.variant_of_mem hrow]⟩
  · rintro ⟨family, tag, hkey⟩
    refine ⟨family, family.mem_all, List.mem_flatMap.mpr ?_⟩
    unfold Family.variant at hkey
    cases hfound : family.variants.lookup tag with
    | none =>
      rw [hfound] at hkey
      cases hkey
    | some variant =>
      rw [hfound] at hkey
      exact ⟨(tag, variant), mem_of_lookup_eq_some hfound, hkey⟩

/-! ### Pruning -/

mutual

/-- A value without the keys that are not kept, at every depth. -/
def prune (keep : String → Bool) : Json → Json
  | .arr items => .arr (pruneItems keep items)
  | .obj members => .obj (pruneMembers keep members)
  | .null => .null
  | .bool value => .bool value
  | .num value => .num value
  | .str text => .str text

/-- The items of a list without the keys that are not kept. -/
def pruneItems (keep : String → Bool) : List Json → List Json
  | [] => []
  | item :: items => prune keep item :: pruneItems keep items

/-- The members of an object without the keys that are not kept. -/
def pruneMembers (keep : String → Bool) : List (String × Json) → List (String × Json)
  | [] => []
  | (key, value) :: members =>
    if keep key then (key, prune keep value) :: pruneMembers keep members
    else pruneMembers keep members

end

section

variable {keep : String → Bool}

theorem pruneItems_eq_map (items : List Json) : pruneItems keep items = items.map (prune keep) := by
  induction items with
  | nil => rfl
  | cons item items ih => rw [pruneItems, ih, List.map_cons]

theorem valuesAt_pruneMembers {key : String} (h : keep key = true)
    (members : List (String × Json)) :
    valuesAt key (pruneMembers keep members) = (valuesAt key members).map (prune keep) := by
  induction members with
  | nil => rfl
  | cons member members ih =>
    obtain ⟨other, value⟩ := member
    rw [pruneMembers]
    by_cases hother : other = key
    · subst hother
      rw [if_pos h, valuesAt_cons_self, valuesAt_cons_self, ih, List.map_cons]
    · rw [valuesAt_cons_ne hother]
      split_ifs
      · rw [valuesAt_cons_ne hother, ih]
      · exact ih

mutual

theorem depth_prune_le (keep : String → Bool) : ∀ value, (prune keep value).depth ≤ value.depth
  | .arr items => by
    have hitems := itemsDepth_pruneItems_le keep items
    rw [prune, depth, depth]
    omega
  | .obj members => by
    have hmembers := membersDepth_pruneMembers_le keep members
    rw [prune, depth, depth]
    omega
  | .null | .bool _ | .num _ | .str _ => Nat.le_refl _

theorem itemsDepth_pruneItems_le (keep : String → Bool) :
    ∀ items, itemsDepth (pruneItems keep items) ≤ itemsDepth items
  | [] => Nat.le_refl _
  | item :: items => by
    have hitem := depth_prune_le keep item
    have hitems := itemsDepth_pruneItems_le keep items
    rw [pruneItems, itemsDepth, itemsDepth]
    omega

theorem membersDepth_pruneMembers_le (keep : String → Bool) :
    ∀ members, membersDepth (pruneMembers keep members) ≤ membersDepth members
  | [] => Nat.le_refl _
  | (key, value) :: members => by
    have hvalue := depth_prune_le keep value
    have hmembers := membersDepth_pruneMembers_le keep members
    rw [pruneMembers, membersDepth]
    split_ifs
    · rw [membersDepth]
      omega
    · omega

end

/-! ### Readers of pruned nodes -/

/-- The members `members'` are what pruning leaves of the fields `members` of a node: under the keys
that are kept, the pruned values. -/
def PrunedFields (keep : String → Bool) (node : Json) (members members' : List (String × Json)) :
    Prop :=
  ∀ key, keep key = true → lookup key members' = (lookup key members).map (prune keep) ∧
    ∀ value, lookup key members = some value → value.depth < node.depth

theorem prunedFields_obj (members : List (String × Json)) :
    PrunedFields keep (.obj members) members (pruneMembers keep members) := by
  intro key hkey
  rw [lookup_eq_getLast?, lookup_eq_getLast?, valuesAt_pruneMembers hkey, List.getLast?_map]
  exact ⟨rfl, fun value h => depth_lt_of_mem_valuesAt (List.mem_of_getLast? h)⟩

theorem prunedFields_zip (keys : List String) {items : List Json} {node : Json}
    (h : ∀ item ∈ items, item.depth < node.depth) :
    PrunedFields keep node (keys.zip items) (keys.zip (pruneItems keep items)) := by
  intro key hkey
  have hzip : keys.zip (pruneItems keep items) =
      (keys.zip items).map fun member => (member.1, prune keep member.2) := by
    rw [pruneItems_eq_map, List.zip_map_right]
    rfl
  refine ⟨by rw [hzip, lookup_map], fun value hvalue => ?_⟩
  exact h value (List.of_mem_zip (mem_of_lookup hvalue)).2

theorem fields?_prune {α : Type} (keys : List String) (node : Json)
    {build : List (String × Json) → α}
    (h : ∀ members members', PrunedFields keep node members members' →
      build members' = build members) :
    ((prune keep node).fields? keys).map build = (node.fields? keys).map build := by
  cases node with
  | null | bool | num | str => rfl
  | obj members => exact congrArg some (h _ _ (prunedFields_obj members))
  | arr items =>
    have hpruned := h _ _ (prunedFields_zip keys fun item hitem => depth_lt_of_mem_items hitem)
    have hlength : (pruneItems keep items).length = items.length := by
      rw [pruneItems_eq_map, List.length_map]
    rw [prune, fields?, fields?, hlength]
    split_ifs
    · exact congrArg some hpruned
    · rfl

theorem taggedFields?_prune {α : Type} (layout : String → List String) (node : Json)
    {build : String × List (String × Json) → α} (htag : keep tagKey = true)
    (h : ∀ tag members members', PrunedFields keep node members members' →
      build (tag, members') = build (tag, members)) :
    ((prune keep node).taggedFields? layout).map build = (node.taggedFields? layout).map build := by
  cases node with
  | null | bool | num | str => rfl
  | obj members =>
    have hpruned : PrunedFields keep (.obj members) members (pruneMembers keep members) :=
      prunedFields_obj members
    rw [prune, taggedFields?, taggedFields?, (hpruned tagKey htag).1]
    cases lookup tagKey members with
    | none => rfl
    | some found =>
      cases found with
      | str tag => exact congrArg some (h tag _ _ hpruned)
      | null | bool | num | arr | obj => rfl
  | arr items =>
    cases items with
    | nil => rfl
    | cons first items =>
      cases first with
      | str tag =>
        have hpruned := h tag _ _ (prunedFields_zip (layout tag) fun item hitem =>
          depth_lt_of_mem_items (List.mem_cons_of_mem _ hitem))
        have hlength : (pruneItems keep items).length = items.length := by
          rw [pruneItems_eq_map, List.length_map]
        rw [prune, pruneItems, prune, taggedFields?, taggedFields?, hlength]
        split_ifs
        · exact congrArg some hpruned
        · rfl
      | null | bool | num | arr | obj => rfl

theorem listed_map_prune (found : Option Json) :
    listed (found.map (prune keep)) = (listed found).map (prune keep) := by
  cases found with
  | none => rfl
  | some value =>
    cases value with
    | arr items => exact pruneItems_eq_map items
    | null | bool | num | str | obj => rfl

theorem Slot.lenient_prune (slot : Slot) {node : Json} {found : Option Json}
    (hfound : ∀ value, found = some value → value.depth < node.depth)
    (ih : ∀ (kind : Kind) (value : Json), value.depth < node.depth →
      kind.read (prune keep value) = kind.read value) :
    slot.lenient (found.map (prune keep)) = slot.lenient found := by
  have hread : ∀ kind : Kind, (found.map (prune keep)).bind kind.read = found.bind kind.read := by
    intro kind
    cases found with
    | none => rfl
    | some value => exact ih kind value (hfound value rfl)
  cases slot with
  | node kind => rw [lenient, lenient, hread]
  | optional kind => rw [lenient, lenient, hread]
  | nodes kind =>
    rw [lenient, lenient, listed_map_prune, List.map_map]
    refine List.map_congr_left fun item hitem => ?_
    have hdepth : item.depth < node.depth := by
      cases found with
      | none => cases hitem
      | some value =>
        have hvalue := hfound value rfl
        cases value with
        | arr items => exact Nat.lt_trans (depth_lt_of_mem_items hitem) hvalue
        | null | bool | num | str | obj => cases hitem
    rw [Function.comp_apply, ih kind item hdepth]

theorem Values.ofMembers_congr {members members' : List (String × Json)}
    {fields : List (String × Slot)}
    (h : ∀ field ∈ fields, field.2.lenient (lookup field.1 members') =
      field.2.lenient (lookup field.1 members)) :
    Values.ofMembers members' fields = Values.ofMembers members fields := by
  induction fields with
  | nil => rfl
  | cons field fields ih =>
    rw [List.forall_mem_cons] at h
    rw [ofMembers, ofMembers, h.1, ih h.2]

/-- **Every reader** gives the same node for a value and for the pruned value. -/
theorem Kind.read_prune (hkeep : ∀ key ∈ knownKeys, keep key = true) (kind : Kind) (node : Json) :
    kind.read (prune keep node) = kind.read node := by
  induction hdepth : node.depth using Nat.strong_induction_on generalizing kind node with
  | _ depth ih =>
    subst hdepth
    have hnode : ∀ {α : Type} (variant : Variant α), (∀ key ∈ variant.keys, key ∈ knownKeys) →
        ∀ members members', PrunedFields keep node members members' →
          variant.node members' = variant.node members := by
      intro α variant hknown members members' hpruned
      refine congrArg variant.make (Values.ofMembers_congr fun field hfield => ?_)
      have hkey : field.1 ∈ knownKeys := hknown field.1 (List.mem_map_of_mem hfield)
      obtain ⟨hlookup, hbelow⟩ := hpruned field.1 (hkeep field.1 hkey)
      rw [hlookup]
      exact field.2.lenient_prune hbelow fun kind value hvalue => ih _ hvalue kind value rfl
    rw [kind.read_eq, kind.read_eq]
    cases kind with
    | text | flag => cases node <;> rfl
    | record record =>
      refine fields?_prune _ node (hnode record.variant fun key hkey => ?_)
      exact mem_knownKeys.mpr (.inr (.inl ⟨record, hkey⟩))
    | family family =>
      refine taggedFields?_prune _ node (hkeep _ List.mem_cons_self) fun tag => ?_
      refine hnode (family.variant tag) fun key hkey => ?_
      exact mem_knownKeys.mpr (.inr (.inr ⟨family, tag, hkey⟩))

/-! ### Pruned documents -/

theorem File.ofItems_prune (hkeep : ∀ key ∈ knownKeys, keep key = true) (items : Json) :
    File.ofItems (prune keep items) = File.ofItems items := by
  have hlisted : listed (some (prune keep items)) = (listed (some items)).map (prune keep) :=
    listed_map_prune (some items)
  rw [ofItems, ofItems, hlisted, List.map_map]
  congr 1
  refine List.map_congr_left fun element _ => ?_
  have hread : Item.ofJson? (prune keep element) = Item.ofJson? element :=
    Kind.read_prune hkeep (.family .item) element
  rw [Function.comp_apply, Item.ofElement, Item.ofElement, hread]

/-- What is read of the root is not too deep, if the root is not or if it is accepted. -/
theorem File.ofRoot_prune (hkeep : ∀ key ∈ knownKeys, keep key = true) {value : Json}
    (h : value.depth ≤ maxDepth ∨ ∃ file, File.ofRoot value = .ok file) :
    File.ofRoot (prune keep value) = File.ofRoot value := by
  cases value with
  | null | bool | num | str => rfl
  | arr items =>
    rcases items with _ | ⟨first, _ | ⟨second, more⟩⟩
    · rfl
    · have hfirst : first.depth < maxDepth := by
        obtain hdepth | ⟨file, hfile⟩ := h
        · exact Nat.lt_of_lt_of_le (depth_lt_of_mem_items List.mem_cons_self) hdepth
        · by_contra hnot
          rw [File.ofRoot, if_neg hnot] at hfile
          cases hfile
      have hpruned := depth_prune_le keep first
      rw [prune, pruneItems, pruneItems, File.ofRoot, File.ofRoot, if_pos hfirst,
        if_pos (show (prune keep first).depth < maxDepth by omega), File.ofItems_prune hkeep]
    · rfl
  | obj members =>
    have hitems : keep "items" = true :=
      hkeep "items" (mem_knownKeys.mpr (.inr (.inl ⟨.file, List.mem_cons_self⟩)))
    rw [prune, File.ofRoot, File.ofRoot, valuesAt_pruneMembers hitems]
    rw [File.ofRoot] at h
    rcases hvalues : valuesAt "items" members with _ | ⟨first, more⟩
    · rfl
    · have hfirst : first.depth < maxDepth := by
        obtain hdepth | ⟨file, hfile⟩ := h
        · exact Nat.lt_of_lt_of_le (depth_lt_of_valuesAt_eq_cons hvalues) hdepth
        · by_contra hnot
          rw [hvalues] at hfile
          simp only [if_neg hnot] at hfile
          cases hfile
      have hpruned := depth_prune_le keep first
      simp only [List.map_cons, List.map_eq_nil_iff, if_pos hfirst,
        if_pos (show (prune keep first).depth < maxDepth by omega), File.ofItems_prune hkeep]

end

/-- **Extra keys never matter.** The known keys are that of the tag and those of the forms of the
schema. If other keys are taken away from every object of a value, at every depth, then every reader
gives the same node; and a document that is not too deep, or is accepted anyway, is read as the same
file and has the same analysis. -/
theorem extra_keys_never_matter (keep : String → Bool)
    (hkeep : ∀ key ∈ knownKeys, keep key = true) (value : Json) :
    (∀ key, key ∈ knownKeys ↔ key = tagKey ∨ (∃ record : Record, key ∈ record.variant.keys) ∨
      ∃ (family : Family) (tag : String), key ∈ (family.variant tag).keys) ∧
    (∀ kind : Kind, kind.read (prune keep value) = kind.read value) ∧
    ∀ text text', Holds text value → Holds text' (prune keep value) →
      (value.depth ≤ maxDepth ∨ ∃ file, File.ofText text = .ok file) →
      File.ofText text' = File.ofText text ∧ analyzeText text' = analyzeText text := by
  refine ⟨fun _ => mem_knownKeys, fun kind => kind.read_prune hkeep value, ?_⟩
  intro text text' htext htext' haccepted
  have hfile : File.ofText text' = File.ofText text := by
    rw [File.ofText_eq htext] at haccepted ⊢
    rw [File.ofText_eq htext', File.ofRoot_prune hkeep haccepted]
  exact ⟨hfile, by rw [analyzeText, analyzeText, hfile]⟩

/-- A struct with a span and attributes around its name. -/
def annotated : Json :=
  rootOf [.obj [("span", .arr [.bool true]), (tagKey, .str "ItemStruct"),
    ("ident", .obj [("to_string", .str "Pair"), ("attrs", .arr [])])]]

theorem annotated_keys_never_matter :
    prune (· ∈ knownKeys) annotated =
        .obj [("items", .arr [.obj [(tagKey, .str "ItemStruct"),
          ("ident", .obj [("to_string", .str "Pair")])]])] ∧
      analyzeText (prune (· ∈ knownKeys) annotated).compact = analyzeText annotated.compact := by
  have hpruned : prune (· ∈ knownKeys) annotated =
      .obj [("items", .arr [.obj [(tagKey, .str "ItemStruct"),
        ("ident", .obj [("to_string", .str "Pair")])]])] := rfl
  have htext : Holds annotated.compact annotated :=
    holds_compact (by simp [annotated, rootOf, ItemsExact, MembersExact, Exact])
  have htext' : Holds (prune (· ∈ knownKeys) annotated).compact
      (prune (· ∈ knownKeys) annotated) :=
    holds_compact (by simp [hpruned, ItemsExact, MembersExact, Exact])
  refine ⟨hpruned, ?_⟩
  exact ((extra_keys_never_matter (· ∈ knownKeys) (fun key hkey => by simpa using hkey)
    annotated).2.2 _ _ htext htext' (.inl (by decide))).2

end AbiRecovery.Tree
