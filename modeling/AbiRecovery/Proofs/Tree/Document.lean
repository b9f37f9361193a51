import AbiRecovery.Extraction
import AbiRecovery.Proofs.Json.WellFormed
import AbiRecovery.Proofs.Program.ItemOrder
import AbiRecovery.Proofs.Tree.Schema

/-!
# Tree documents

What a text is read as depends on the value that it holds (`File.ofText_eq`), and only the root of
that value can be refused: for its kind, for `items` given twice, or for a list of more than one
element (`File.ofRoot_eq_error_iff`). Below the root nothing is refused. Each element of `items` is
read on its own, and one that cannot be read takes its place as an item of no known kind
(`TreeDocument.ofText_eq`). Such items leave no trace in the analysis
(`TreeDocument.analyzeText_congr`).
-/

namespace AbiRecovery.Tree

open Json

/-! ### The root -/

/-- The item of an element; an element that cannot be read is not recognised. -/
def Item.ofElement (element : Json) : Item :=
  (Item.ofJson? element).getD .other

/-- The file with the given value of `items`. -/
def File.ofItems (items : Json) : File :=
  ⟨(listed (some items)).map Item.ofElement⟩

/-- What a value is read as when it is the root of a document. -/
def File.ofRoot : Json → Except Fault File
  | .obj members =>
    match valuesAt "items" members with
    | [] => .ok ⟨[]⟩
    | items :: more =>
      if items.depth < maxDepth then
        if more = [] then .ok (File.ofItems items) else .error (.duplicate "items")
      else .error .malformed
  | .arr [] => .ok ⟨[]⟩
  | .arr [items] => if items.depth < maxDepth then .ok (File.ofItems items) else .error .malformed
  | .arr _ => .error .malformed
  | .null => .error (.mismatch .null "struct File")
  | .bool value => .error (.mismatch (.bool value) "struct File")
  | .num value => .error (.mismatch (.num value) "struct File")
  | .str text => .error (.mismatch (.str text) "struct File")

/-- The fields of the root. -/
def rootFields : List (String × Presence × Shape) :=
  [("items", .defaulted, .any)]

/-- The file of the fields that were read. -/
def File.ofFields (fields : List (String × Json)) : File :=
  (File.ofJson? (.obj fields)).getD ⟨[]⟩

theorem File.ofFields_nil : File.ofFields [] = ⟨[]⟩ := by
  rw [ofFields, show File.ofJson? (.obj []) = _ from Record.read_eq .file (.obj [])]
  rfl

theorem File.ofFields_items (items : Json) :
    File.ofFields [("items", items)] = File.ofItems items := by
  rw [ofFields, show File.ofJson? _ = _ from Record.read_eq .file (.obj [("items", items)])]
  rfl

theorem readMembers_second {room : ℕ} {members : List (Option String × Draft)}
    {values : List (String × Json)} (h : Draft.memberValues? room members = some values)
    (items : Json) (depth : ℕ) :
    Shape.readMembers depth rootFields true [("items", items)] members =
      if valuesAt "items" values = [] then .ok [("items", items)]
      else .error (.duplicate "items") := by
  induction members generalizing values with
  | nil =>
    rw [Draft.memberValues?] at h
    cases h
    rfl
  | cons member members ih =>
    obtain ⟨key, draft⟩ := member
    obtain ⟨name, value, rest, rfl, hvalue, hrest, rfl⟩ := Draft.memberValues?_cons h
    rw [Shape.readMembers]
    by_cases hname : name = "items"
    · subst hname
      rw [valuesAt_cons_self, if_neg (by simp)]
      rfl
    · have hlookup : rootFields.lookup name = none := by simp [rootFields, hname]
      rw [hlookup, valuesAt_cons_ne hname]
      exact ih hrest

theorem readMembers_first {room : ℕ} {members : List (Option String × Draft)}
    {values : List (String × Json)} (h : Draft.memberValues? room members = some values)
    (depth : ℕ) :
    Shape.readMembers depth rootFields true [] members =
      match valuesAt "items" values with
      | [] => .ok []
      | items :: more =>
        if items.depth ≤ depth then
          if more = [] then .ok [("items", items)] else .error (.duplicate "items")
        else .error .malformed := by
  induction members generalizing values with
  | nil =>
    rw [Draft.memberValues?] at h
    cases h
    rfl
  | cons member members ih =>
    obtain ⟨key, draft⟩ := member
    obtain ⟨name, value, rest, rfl, hvalue, hrest, rfl⟩ := Draft.memberValues?_cons h
    rw [Shape.readMembers]
    by_cases hname : name = "items"
    · subst hname
      have hlookup : rootFields.lookup "items" = some (.defaulted, .any) := rfl
      simp only [hlookup, List.lookup_nil, Option.isSome_none, Bool.false_eq_true, if_false,
        Shape.read_any, Draft.value?_eq_ite hvalue depth, valuesAt_cons_self]
      by_cases hdepth : value.depth ≤ depth
      · simp only [if_pos hdepth]
        exact readMembers_second hrest value depth
      · simp only [if_neg hdepth]
        rfl
    · have hlookup : rootFields.lookup name = none := by simp [rootFields, hname]
      rw [hlookup, valuesAt_cons_ne hname]
      exact ih hrest

theorem readPositions_root {room : ℕ} {items : List Draft} {values : List Json}
    (h : Draft.values? room items = some values) (depth : ℕ) :
    Shape.readPositions depth "File" 1 true 0 rootFields items =
      match values with
      | [] => .ok []
      | [items] => if items.depth ≤ depth then .ok [("items", items)] else .error .malformed
      | _ => .error .malformed := by
  cases items with
  | nil =>
    rw [Draft.values?] at h
    cases h
    rfl
  | cons first more =>
    obtain ⟨value, rest, hvalue, hrest, rfl⟩ := Draft.values?_cons h
    rw [rootFields, Shape.readPositions, Shape.read_any, Draft.value?_eq_ite hvalue depth]
    cases more with
    | nil =>
      rw [Draft.values?] at hrest
      cases hrest
      by_cases hdepth : value.depth ≤ depth
      · simp only [if_pos hdepth]
        rfl
      · simp only [if_neg hdepth]
        rfl
    | cons second others =>
      obtain ⟨_, _, -, -, rfl⟩ := Draft.values?_cons hrest
      by_cases hdepth : value.depth ≤ depth
      · simp only [if_pos hdepth]
        rfl
      · simp only [if_neg hdepth]
        rfl

theorem le_pred_maxDepth_iff (depth : ℕ) : depth ≤ maxDepth - 1 ↔ depth < maxDepth := by
  unfold maxDepth
  omega

theorem read_root {draft : Draft} {room : ℕ} {value : Json} (h : draft.value? room = some value) :
    (File.shape.read maxDepth draft).map (fun value => (File.ofJson? value).getD ⟨[]⟩) =
      File.ofRoot value := by
  cases draft with
  | null =>
    cases h
    rfl
  | bool b =>
    cases h
    rfl
  | num numeral =>
    rw [Draft.value?] at h
    obtain ⟨number, hnumber, rfl⟩ := Option.map_eq_some_iff.mp h
    rw [Shape.read, hnumber]
    rfl
  | str text =>
    rw [Draft.value?] at h
    obtain ⟨content, rfl, rfl⟩ := Option.map_eq_some_iff.mp h
    rfl
  | arr items closed =>
    obtain ⟨rfl, smaller, values, rfl, hvalues, rfl⟩ := Draft.value?_arr h
    have hread : File.shape.read maxDepth (.arr items true) =
        (Shape.readPositions (maxDepth - 1) "File" 1 true 0 rootFields items).map .obj := rfl
    rw [hread, readPositions_root hvalues]
    simp only [le_pred_maxDepth_iff]
    rcases values with _ | ⟨first, _ | ⟨second, others⟩⟩
    · exact congrArg Except.ok File.ofFields_nil
    · simp only [File.ofRoot]
      split_ifs
      · exact congrArg Except.ok (File.ofFields_items first)
      · rfl
    · rfl
  | obj members closed =>
    obtain ⟨rfl, smaller, values, rfl, hvalues, rfl⟩ := Draft.value?_obj h
    have hread : File.shape.read maxDepth (.obj members true) =
        (Shape.readMembers (maxDepth - 1) rootFields true [] members).map .obj := rfl
    rw [hread, readMembers_first hvalues, File.ofRoot]
    simp only [le_pred_maxDepth_iff]
    cases valuesAt "items" values with
    | nil => exact congrArg Except.ok File.ofFields_nil
    | cons items more =>
      simp only
      split_ifs
      · exact congrArg Except.ok (File.ofFields_items items)
      · rfl
      · rfl
  | cut =>
    rw [Draft.value?] at h
    cases h

/-- **The root of a well-formed text** decides what the text is read as. -/
theorem File.ofText_eq {text : String} {value : Json} (h : Holds text value) :
    File.ofText text = File.ofRoot value := by
  obtain ⟨hended, room, hvalue⟩ := h
  rw [← read_root hvalue, File.ofText, Shape.readText]
  cases File.shape.read maxDepth (Scan.ofText text).root with
  | error fault => rfl
  | ok found =>
    simp only [hended, if_true]

/-! ### Documents -/

/-- A **tree document** with the given elements: a well-formed text whose root is an object in which
`items` occurs at most once. The elements are those of `items`; there are none if it is no list. -/
def TreeDocument (text : String) (elements : List Json) : Prop :=
  ∃ members, WellFormed text (.obj members) ∧ (valuesAt "items" members).length ≤ 1 ∧
    elements = listed (lookup "items" members)

/-- A root that is refused, whatever stands below it. -/
def Refused : Json → Prop
  | .obj members => 2 ≤ (valuesAt "items" members).length
  | .arr items => 2 ≤ items.length
  | .null | .bool _ | .num _ | .str _ => True

/-- An element that is no item of a known kind. -/
def Unrecognised (element : Json) : Prop :=
  (Item.ofElement element).kind? = none

theorem depth_lt_of_mem_valuesAt {key : String} {value : Json} {members : List (String × Json)}
    (h : value ∈ valuesAt key members) : value.depth < (Json.obj members).depth := by
  obtain ⟨member, hmember, rfl⟩ := List.mem_map.mp h
  exact depth_lt_of_mem_members (List.mem_filter.mp hmember).1

theorem depth_lt_of_valuesAt_eq_cons {key : String} {first : Json} {more : List Json}
    {members : List (String × Json)} (h : valuesAt key members = first :: more) :
    first.depth < (Json.obj members).depth := by
  have hmem : first ∈ valuesAt key members := by
    rw [h]
    exact List.mem_cons_self
  exact depth_lt_of_mem_valuesAt hmem

theorem TreeDocument.ofText_eq {text : String} {elements : List Json}
    (h : TreeDocument text elements) :
    File.ofText text = .ok ⟨elements.map Item.ofElement⟩ := by
  obtain ⟨members, ⟨hholds, hdepth⟩, honce, rfl⟩ := h
  rw [File.ofText_eq hholds, File.ofRoot, lookup_eq_getLast?]
  rcases hvalues : valuesAt "items" members with _ | ⟨items, _ | ⟨second, more⟩⟩
  · rfl
  · have hitems := depth_lt_of_valuesAt_eq_cons hvalues
    simp only [if_pos (show items.depth < maxDepth by omega), if_true]
    rfl
  · rw [hvalues] at honce
    simp at honce

theorem TreeDocument.analyzeText_eq {text : String} {elements : List Json}
    (h : TreeDocument text elements) :
    analyzeText text =
      .ok (Analysis.ofFile ⟨elements.map Item.ofElement⟩,
        Analysis.eventsOf ⟨elements.map Item.ofElement⟩) := by
  rw [analyzeText, h.ofText_eq]

theorem TreeDocument.analyzeText_congr {text text' : String} {elements elements' : List Json}
    (h : TreeDocument text elements) (h' : TreeDocument text' elements')
    (hkind : ∀ kind, ofKind kind (elements'.map Item.ofElement) =
      ofKind kind (elements.map Item.ofElement)) :
    analyzeText text' = analyzeText text := by
  have hsame : Analysis.ofFile ⟨elements'.map Item.ofElement⟩ =
        Analysis.ofFile ⟨elements.map Item.ofElement⟩ ∧
      Analysis.eventsOf ⟨elements'.map Item.ofElement⟩ =
        Analysis.eventsOf ⟨elements.map Item.ofElement⟩ := Analysis.eq_of_ofKind hkind
  rw [h.analyzeText_eq, h'.analyzeText_eq, hsame.1, hsame.2]

theorem map_ofElement_eraseIdx (elements : List Json) (i : ℕ) :
    (elements.eraseIdx i).map Item.ofElement = (elements.map Item.ofElement).eraseIdx i := by
  simp [List.eraseIdx_eq_take_drop_succ, List.map_take, List.map_drop]

/-- A root that is not too deep is refused for its form alone. -/
theorem File.ofRoot_eq_error_iff {value : Json} (h : value.depth ≤ maxDepth) :
    (∃ fault, File.ofRoot value = .error fault) ↔ Refused value := by
  cases value with
  | null | bool | num | str => exact ⟨fun _ => trivial, fun _ => ⟨_, rfl⟩⟩
  | arr items =>
    rcases items with _ | ⟨first, _ | ⟨second, more⟩⟩
    · simp [File.ofRoot, Refused]
    · have hfirst : first.depth < (Json.arr [first]).depth :=
        depth_lt_of_mem_items List.mem_cons_self
      simp [File.ofRoot, Refused, show first.depth < maxDepth by omega]
    · simp [File.ofRoot, Refused]
  | obj members =>
    rw [File.ofRoot, Refused]
    rcases hvalues : valuesAt "items" members with _ | ⟨first, more⟩
    · simp
    · have hfirst := depth_lt_of_valuesAt_eq_cons hvalues
      cases more with
      | nil => simp [show first.depth < maxDepth by omega]
      | cons second more => simp [show first.depth < maxDepth by omega]

theorem analyzeText_eq_error_iff {text : String} {value : Json} (h : WellFormed text value) :
    (∃ error, analyzeText text = .error error) ↔ Refused value := by
  rw [← File.ofRoot_eq_error_iff h.2, ← File.ofText_eq h.1, analyzeText]
  cases File.ofText text with
  | ok file => simp
  | error fault => simp

theorem kind_of_analyzeText_eq_error {text : String} {error : AbiError}
    (h : analyzeText text = .error error) :
    ∃ context cause, error = .inContext context cause ∧ context.kind = .tree := by
  rw [analyzeText] at h
  cases hfile : File.ofText text with
  | ok file =>
    rw [hfile] at h
    cases h
  | error fault =>
    rw [hfile] at h
    cases h
    exact ⟨_, _, rfl, by decide⟩

/-- **Damage stays local.** A tree document is read, whatever its elements are: each gives one item,
in order, so another value in the place of one leaves the other items alone. An element that is not
recognised can be replaced by another such element, or left out, without a change to the analysis.
A text is rejected with an error about the tree, and only if it is not well-formed or its root is
refused. -/
theorem damage_stays_local (text : String) :
    (∀ elements, TreeDocument text elements →
      File.ofText text = .ok ⟨elements.map Item.ofElement⟩ ∧
      (∀ text' i value, TreeDocument text' (elements.set i value) →
        ∃ file file', File.ofText text = .ok file ∧ File.ofText text' = .ok file' ∧
          ∀ j, j ≠ i → file'.items[j]? = file.items[j]?) ∧
      ∀ text' i element, elements[i]? = some element → Unrecognised element →
        ((∃ value, Unrecognised value ∧ TreeDocument text' (elements.set i value)) ∨
          TreeDocument text' (elements.eraseIdx i)) →
        ∃ analysis events, analyzeText text = .ok (analysis, events) ∧
          analyzeText text' = .ok (analysis, events)) ∧
    (∀ error, analyzeText text = .error error →
      (∃ context cause, error = .inContext context cause ∧ context.kind = .tree) ∧
        ((∀ value, ¬WellFormed text value) ∨ ∃ value, WellFormed text value ∧ Refused value)) ∧
    ∀ value, WellFormed text value →
      ((∃ error, analyzeText text = .error error) ↔ Refused value) := by
  refine ⟨fun elements h => ⟨h.ofText_eq, ?_, ?_⟩, ?_, fun value => analyzeText_eq_error_iff⟩
  · intro text' i value h'
    refine ⟨_, _, h.ofText_eq, h'.ofText_eq, fun j hj => ?_⟩
    rw [List.getElem?_map, List.getElem?_map, List.getElem?_set_ne (Ne.symm hj)]
  · intro text' i element helement hunrecognised hchange
    have hkind : kindAt (elements.map Item.ofElement) i = none := by
      rw [kindAt, List.getElem?_map, helement]
      exact hunrecognised
    refine ⟨_, _, h.analyzeText_eq, ?_⟩
    rw [← h.analyzeText_eq]
    obtain ⟨value, hvalue, h'⟩ | h' := hchange
    · refine h.analyzeText_congr h' fun kind => ?_
      rw [List.map_set]
      exact ofKind_set hkind hvalue kind
    · refine h.analyzeText_congr h' fun kind => ?_
      rw [map_ofElement_eraseIdx]
      exact ofKind_eraseIdx hkind kind
  · intro error herror
    refine ⟨kind_of_analyzeText_eq_error herror, ?_⟩
    by_cases hvalue : ∃ value, WellFormed text value
    · obtain ⟨value, hvalue⟩ := hvalue
      exact .inr ⟨value, hvalue, (analyzeText_eq_error_iff hvalue).mp ⟨error, herror⟩⟩
    · exact .inl fun value h => hvalue ⟨value, h⟩

/-- A root with the given elements. -/
def rootOf (elements : List Json) : Json :=
  .obj [("span", .null), ("items", .arr elements)]

theorem treeDocument_rootOf {elements : List Json} (h : ItemsExact elements)
    (hdepth : itemsDepth elements + 2 ≤ maxDepth) :
    TreeDocument (rootOf elements).compact elements := by
  refine ⟨_, ⟨holds_compact ?_, ?_⟩, ?_, rfl⟩
  · simp [rootOf, Exact, MembersExact, h]
  · simp only [depth, membersDepth]
    omega
  · exact Nat.le_refl 1

/-- A struct between two elements that cannot be read. -/
def damaged : List Json :=
  [.null, .obj [(tagKey, .str "ItemStruct"), ("ident", .arr [])], .arr [.bool true]]

theorem damaged_stays_local :
    TreeDocument (rootOf damaged).compact damaged ∧ Unrecognised .null ∧
      TreeDocument (rootOf (damaged.eraseIdx 0)).compact (damaged.eraseIdx 0) ∧
      ∃ analysis events, analyzeText (rootOf damaged).compact = .ok (analysis, events) ∧
        analyzeText (rootOf (damaged.eraseIdx 0)).compact = .ok (analysis, events) := by
  have hdamaged : TreeDocument (rootOf damaged).compact damaged :=
    treeDocument_rootOf (by simp [damaged, ItemsExact, MembersExact, Exact]) (by decide)
  have hnull : Unrecognised .null := by
    rw [Unrecognised, Item.ofElement,
      show Item.ofJson? .null = Kind.decode (.family .item) .null from Family.read_eq .item .null]
    rfl
  have herased : TreeDocument (rootOf (damaged.eraseIdx 0)).compact (damaged.eraseIdx 0) :=
    treeDocument_rootOf (by simp [damaged, ItemsExact, MembersExact, Exact]) (by decide)
  exact ⟨hdamaged, hnull, herased,
    ((damage_stays_local _).1 damaged hdamaged).2.2 _ 0 .null rfl hnull (.inr herased)⟩

end AbiRecovery.Tree
