import AbiRecovery.Json.Shape
import AbiRecovery.Proofs.Json.Spelling
import AbiRecovery.Proofs.ListLemmas

/-!
# Printed values are read back

The tokens of a value give back its tree, the *draft* of the value, with every container closed
(`scan_of_spells`). Walking that draft by a shape gives back the value, provided that the shape
*admits* it (`Shape.read_draft`): every record has the required fields of its shape and no others,
in the order of the shape.

Nothing has to be said about the depth of the value: a shape without the wildcard `any` bounds it
(`Shape.levels`).

Main statements: `Shape.readText_compact` and `Shape.readText_pretty`.
-/

namespace AbiRecovery.Json

mutual

/-- The tree of a text that holds a value. -/
def draft : Json → Draft
  | null => .null
  | bool value => .bool value
  | num value => .num value.numeral
  | str text => .str (some text)
  | arr items => .arr (itemDrafts items) true
  | obj members => .obj (memberDrafts members) true

/-- The trees of the items of a list. -/
def itemDrafts : List Json → List Draft
  | [] => []
  | item :: items => draft item :: itemDrafts items

/-- The trees of the members of an object. -/
def memberDrafts : List (String × Json) → List (Option String × Draft)
  | [] => []
  | (key, value) :: members => (some key, draft value) :: memberDrafts members

end

/-! ### From tokens to the draft -/

theorem itemTokens_cons (item : Json) (items : List Json) :
    ∃ more, itemTokens (item :: items) = item.tokens ++ more := by
  cases items with
  | nil => exact ⟨[], by rw [itemTokens, List.append_nil]⟩
  | cons next items => exact ⟨.comma :: itemTokens (next :: items), by rw [itemTokens]; simp⟩

theorem memberTokens_cons (member : String × Json) (members : List (String × Json)) :
    ∃ more, memberTokens (member :: members) = .str (some member.1) :: more := by
  cases members with
  | nil => exact ⟨_, by rw [memberTokens]⟩
  | cons next members => exact ⟨_, by rw [memberTokens]; simp⟩

/-- No value begins like the end of a list, so a first item is read like any other. -/
theorem foldl_step_firstItem (item : Json) (items : List Json) (more : List Token)
    (frames : List Frame) :
    (itemTokens (item :: items) ++ more).foldl Expecting.step (.firstItem frames) =
      (itemTokens (item :: items) ++ more).foldl Expecting.step (.value (.arr [] :: frames)) := by
  obtain ⟨rest, hrest⟩ := itemTokens_cons item items
  rw [hrest, List.append_assoc]
  cases item <;> rw [tokens] <;> rfl

theorem foldl_step_firstKey (member : String × Json) (members : List (String × Json))
    (more : List Token) (frames : List Frame) :
    (memberTokens (member :: members) ++ more).foldl Expecting.step (.firstKey frames) =
      (memberTokens (member :: members) ++ more).foldl Expecting.step (.nextKey [] frames) := by
  obtain ⟨rest, hrest⟩ := memberTokens_cons member members
  rw [hrest]
  rfl

mutual

/-- **One value**: its tokens give its draft to the container that waits for it. -/
theorem foldl_step_tokens : ∀ (value : Json) (frames : List Frame),
    value.tokens.foldl Expecting.step (.value frames) = .give value.draft frames
  | null, _ => by
    rw [tokens, draft]
    rfl
  | bool _, _ => by
    rw [tokens, draft]
    rfl
  | num _, _ => by
    rw [tokens, draft]
    rfl
  | str _, _ => by
    rw [tokens, draft]
    rfl
  | arr [], _ => by
    rw [tokens, itemTokens, draft, itemDrafts]
    rfl
  | arr (item :: items), frames => by
    have hopen : Expecting.step (.value frames) .leftBracket = .firstItem frames := rfl
    rw [tokens, draft, List.foldl_cons, hopen, foldl_step_firstItem, List.foldl_append,
      foldl_step_itemTokens (item :: items) (by simp) [] frames]
    simp [Expecting.step, Expecting.next?]
  | obj [], _ => by
    rw [tokens, memberTokens, draft, memberDrafts]
    rfl
  | obj (member :: members), frames => by
    have hopen : Expecting.step (.value frames) .leftBrace = .firstKey frames := rfl
    rw [tokens, draft, List.foldl_cons, hopen, foldl_step_firstKey, List.foldl_append,
      foldl_step_memberTokens (member :: members) (by simp) [] frames]
    simp [Expecting.step, Expecting.next?]

/-- The items of a list, after the items `before`, newest first. -/
theorem foldl_step_itemTokens : ∀ items : List Json, items ≠ [] →
    ∀ (before : List Draft) (frames : List Frame),
    (itemTokens items).foldl Expecting.step (.value (.arr before :: frames)) =
      .nextItem ((itemDrafts items).reverse ++ before) frames
  | [], h, _, _ => absurd rfl h
  | [item], _, before, frames => by
    rw [itemTokens, foldl_step_tokens item, itemDrafts, itemDrafts]
    rfl
  | item :: next :: items, _, before, frames => by
    have hcomma : Expecting.step (.give item.draft (.arr before :: frames)) .comma =
        .value (.arr (item.draft :: before) :: frames) := rfl
    rw [itemTokens, List.foldl_append, foldl_step_tokens item, List.foldl_cons, hcomma,
      foldl_step_itemTokens (next :: items) (by simp)]
    · simp [itemDrafts]
    · simp

theorem foldl_step_memberTokens : ∀ members : List (String × Json), members ≠ [] →
    ∀ (before : List (Option String × Draft)) (frames : List Frame),
    (memberTokens members).foldl Expecting.step (.nextKey before frames) =
      .nextMember ((memberDrafts members).reverse ++ before) frames
  | [], h, _, _ => absurd rfl h
  | [(key, value)], _, before, frames => by
    have hkey : Expecting.step (Expecting.step (.nextKey before frames) (.str (some key))) .colon =
        .value (.obj before (some key) :: frames) := rfl
    rw [memberTokens, List.foldl_cons, List.foldl_cons, hkey, foldl_step_tokens value,
      memberDrafts, memberDrafts]
    rfl
  | (key, value) :: next :: members, _, before, frames => by
    have hkey : Expecting.step (Expecting.step (.nextKey before frames) (.str (some key))) .colon =
        .value (.obj before (some key) :: frames) := rfl
    have hcomma : Expecting.step (.give value.draft (.obj before (some key) :: frames)) .comma =
        .nextKey ((some key, value.draft) :: before) frames := rfl
    rw [memberTokens, List.foldl_cons, List.foldl_cons, hkey, List.foldl_append,
      foldl_step_tokens value, List.foldl_cons, hcomma,
      foldl_step_memberTokens (next :: members) (by simp)]
    · simp [memberDrafts]
    · simp

end

theorem scan_of_spells {text : String} {value : Json} (h : Spells text.toList value.tokens) :
    Scan.ofText text = ⟨value.draft, true⟩ := by
  unfold Scan.ofText Scan.ofTokens
  rw [h.scan_eq, foldl_step_tokens]
  rfl

/-! ### Values of a shape -/

namespace Shape

/-- The keys of the fields of a record. -/
abbrev keys (fields : List (String × Presence × Shape)) : List String :=
  fields.map Prod.fst

mutual

/-- **The values that a shape admits**, as they are printed: the fields of a record stand in the
order of the shape, and a field that is left out is not printed. -/
inductive Admits : Shape → Json → Prop
  | text (content : String) : Admits .text (.str content)
  | flag (value : Bool) : Admits .flag (.bool value)
  | count (code : UInt64) : Admits .count (ofCode code)
  | absent (shape : Shape) : Admits (.optional shape) .null
  | present {shape : Shape} {value : Json} (h : Admits shape value) :
    Admits (.optional shape) value
  | list {item : Shape} {items : List Json} (h : ∀ value ∈ items, Admits item value) :
    Admits (.list item) (.arr items)
  | record {name : String} {fields : List (String × Presence × Shape)}
    {members : List (String × Json)} (h : FieldsAdmit fields members) :
    Admits (.record name fields) (.obj members)

/-- The members that the fields of a record admit. -/
inductive FieldsAdmit : List (String × Presence × Shape) → List (String × Json) → Prop
  | nil : FieldsAdmit [] []
  | given {key : String} {presence : Presence} {shape : Shape} {value : Json}
    {fields : List (String × Presence × Shape)} {members : List (String × Json)}
    (h : Admits shape value) (hs : FieldsAdmit fields members) :
    FieldsAdmit ((key, presence, shape) :: fields) ((key, value) :: members)
  | omitted {key : String} {presence : Presence} {shape : Shape}
    {fields : List (String × Presence × Shape)} {members : List (String × Json)}
    (hp : presence ≠ .required) (hs : FieldsAdmit fields members) :
    FieldsAdmit ((key, presence, shape) :: fields) members

end

mutual

/-- The containers that a value of a shape has open at once. -/
def levels : Shape → ℕ
  | optional shape => levels shape
  | list item => levels item + 1
  | record _ fields => fieldLevels fields + 1
  | _ => 0

/-- The containers that a field of a record has open at once. -/
def fieldLevels : List (String × Presence × Shape) → ℕ
  | [] => 0
  | (_, _, shape) :: fields => max (levels shape) (fieldLevels fields)

end

mutual

/-- No record of a shape has a key twice. -/
def distinct : Shape → Bool
  | optional shape => distinct shape
  | list item => distinct item
  | record _ fields => (keys fields).Nodup && fieldsDistinct fields
  | _ => true

/-- No record inside the fields of a record has a key twice. -/
def fieldsDistinct : List (String × Presence × Shape) → Bool
  | [] => true
  | (_, _, shape) :: fields => distinct shape && fieldsDistinct fields

end

mutual

theorem Admits.exact : ∀ {shape : Shape} {value : Json}, shape.Admits value → value.Exact
  | _, _, .text _ => by rw [Exact.eq_def]; trivial
  | _, _, .flag _ => by rw [Exact.eq_def]; trivial
  | _, _, .count code => by rw [ofCode, Exact]; exact ⟨code, rfl⟩
  | _, _, .absent _ => by rw [Exact.eq_def]; trivial
  | _, _, .present h => h.exact
  | _, .arr items, .list h => by
    rw [Exact]
    have hall : ∀ value ∈ items, value.Exact := fun value hv => (h value hv).exact
    induction items with
    | nil => rw [ItemsExact]; trivial
    | cons item items ih =>
      rw [ItemsExact]
      exact ⟨hall item (by simp),
        ih (fun v hv => h v (by simp [hv])) fun v hv => hall v (by simp [hv])⟩
  | _, _, .record h => by
    rw [Exact]
    exact h.exact

theorem FieldsAdmit.exact : ∀ {fields : List (String × Presence × Shape)}
    {members : List (String × Json)}, FieldsAdmit fields members → MembersExact members
  | _, _, .nil => by rw [MembersExact]; trivial
  | _, _, .given h hs => by
    rw [MembersExact]
    exact ⟨h.exact, hs.exact⟩
  | _, _, .omitted _ hs => hs.exact

end

/-! ### Walking the draft of an admitted value -/

theorem FieldsAdmit.sublist {fields : List (String × Presence × Shape)}
    {members : List (String × Json)} (h : FieldsAdmit fields members) :
    (members.map Prod.fst).Sublist (keys fields) := by
  induction fields generalizing members with
  | nil =>
    cases h
    exact .slnil
  | cons field fields ih =>
    cases h with
    | given _ hs => exact (ih hs).cons_cons _
    | omitted _ hs => exact (ih hs).cons _

theorem readMembers_draft {room : ℕ} {fields : List (String × Presence × Shape)}
    {members given : List (String × Json)}
    (hread : ∀ key value, (key, value) ∈ members → ∃ presence shape,
      fields.lookup key = some (presence, shape) ∧ read room shape value.draft = .ok value)
    (hnodup : (members.map Prod.fst ++ given.map Prod.fst).Nodup) :
    readMembers room fields true given (memberDrafts members) =
      assemble (members.reverse ++ given) fields := by
  induction members generalizing given with
  | nil =>
    rw [memberDrafts, readMembers]
    rfl
  | cons member members ih =>
    obtain ⟨key, value⟩ := member
    obtain ⟨presence, shape, hlookup, hvalue⟩ := hread key value (by simp)
    rw [List.map_cons, List.cons_append, List.nodup_cons] at hnodup
    have hnew : given.lookup key = none := by
      rw [List.lookup_eq_none_iff]
      intro other hother
      have hmem : other.1 ∈ given.map Prod.fst := List.mem_map.mpr ⟨other, hother, rfl⟩
      have hne : key ≠ other.1 := fun he => hnodup.1 (by rw [he]; simp [hmem])
      simpa using hne
    rw [memberDrafts, readMembers, hlookup]
    simp only [hnew, Option.isSome_none, Bool.false_eq_true, if_false, hvalue]
    rw [ih (fun k v hm => hread k v (by simp [hm])) ?_, List.reverse_cons, List.append_assoc]
    · rfl
    · rw [List.map_cons, List.nodup_middle, List.nodup_cons]
      exact hnodup

theorem assemble_of_admit {fields : List (String × Presence × Shape)}
    {members given : List (String × Json)} (h : FieldsAdmit fields members)
    (hnodup : (keys fields).Nodup)
    (hgiven : ∀ key ∈ keys fields, ∀ value,
      given.lookup key = some value ↔ (key, value) ∈ members) :
    assemble given fields = .ok members := by
  induction fields generalizing members with
  | nil =>
    cases h
    rw [assemble]
  | cons field fields ih =>
    rw [keys, List.map_cons, List.nodup_cons] at hnodup
    cases h with
    | @given key presence shape value _ members _ hs =>
      have hhead : given.lookup key = some value := (hgiven key (by simp) value).mpr (by simp)
      have htail : assemble given fields = .ok members := by
        refine ih hs hnodup.2 fun other hother found => ?_
        have hne : other ≠ key := by
          rintro rfl
          exact hnodup.1 hother
        rw [hgiven other (by simp [hother]) found]
        simp [hne]
      simp only [assemble, hhead, htail]
      rfl
    | @omitted key presence shape _ members hp hs =>
      have hhead : given.lookup key = none := by
        rw [Option.eq_none_iff_forall_ne_some]
        intro value hvalue
        have hmem := (hgiven key (by simp) value).mp hvalue
        exact hnodup.1 (hs.sublist.subset (List.mem_map.mpr ⟨_, hmem, rfl⟩))
      simp only [assemble, hhead, if_neg hp]
      exact ih hs hnodup.2 fun other hother found => hgiven other (by simp [hother]) found

theorem readItems_draft {room : ℕ} {shape : Shape} {items : List Json}
    (h : ∀ value ∈ items, read room shape value.draft = .ok value) :
    readItems room shape true (itemDrafts items) = .ok items := by
  induction items with
  | nil =>
    rw [itemDrafts, readItems]
    rfl
  | cons item items ih =>
    rw [itemDrafts, readItems, h item (by simp)]
    simp only [ih fun value hv => h value (by simp [hv])]
    rfl

theorem read_optional {room : ℕ} {shape : Shape} {value : Json}
    (h : read room shape value.draft = .ok value) :
    read room (.optional shape) value.draft = .ok value := by
  cases value <;> simp only [draft, read, nullable, if_true, core] at h ⊢ <;> exact h

mutual

/-- **Reading what a shape admits** gives the value back. -/
theorem read_draft : ∀ {shape : Shape} {value : Json}, shape.Admits value →
    shape.distinct = true → ∀ {room : ℕ}, shape.levels ≤ room →
      read room shape value.draft = .ok value
  | _, _, .text content, _, _, _ => by
    rw [draft, read]
    rfl
  | _, _, .flag value, _, _, _ => by
    rw [draft, read]
    rfl
  | _, _, .count code, _, _, _ => by
    have hpos : ¬ (code.toNat : ℤ) < 0 := by omega
    simp only [ofCode, draft, read, Number.numeral, Int.toNat_natCast, toNumber?_ofNat, core,
      if_neg hpos]
  | _, _, .absent shape, _, _, _ => by
    rw [draft, read]
    rfl
  | _, _, .present h, hd, _, hl => by
    rw [distinct] at hd
    rw [levels] at hl
    exact read_optional (read_draft h hd hl)
  | _, _, .list h, hd, room, hl => by
    rw [distinct] at hd
    rw [levels] at hl
    rw [draft, read]
    simp only [core, if_neg (show room ≠ 0 by omega)]
    rw [readItems_draft fun value hv => read_draft (h value hv) hd (by omega)]
    rfl
  | .record name fields, .obj members, .record h, hd, room, hl => by
    rw [distinct, Bool.and_eq_true, decide_eq_true_eq] at hd
    rw [levels] at hl
    have hmembers : (members.map Prod.fst).Nodup := hd.1.sublist h.sublist
    have hread : ∀ key value, (key, value) ∈ members → ∃ presence shape,
        fields.lookup key = some (presence, shape) ∧
          read (room - 1) shape value.draft = .ok value := by
      intro key value hm
      obtain ⟨presence, shape, hmem, hvalue⟩ :=
        readFields_draft h hd.2 (room - 1) (by omega) key value hm
      exact ⟨presence, shape, (lookup_eq_some_iff_mem hd.1).mpr hmem, hvalue⟩
    rw [draft, read]
    simp only [core, if_neg (show room ≠ 0 by omega)]
    rw [readMembers_draft hread (by simpa using hmembers), List.append_nil,
      assemble_of_admit h hd.1 fun key _ value => ?_]
    · rfl
    · rw [lookup_eq_some_iff_mem (by simpa using hmembers), List.mem_reverse]

theorem readFields_draft : ∀ {fields : List (String × Presence × Shape)}
    {members : List (String × Json)}, FieldsAdmit fields members → fieldsDistinct fields = true →
      ∀ room : ℕ, fieldLevels fields ≤ room → ∀ key value, (key, value) ∈ members →
        ∃ presence shape, (key, presence, shape) ∈ fields ∧ read room shape value.draft = .ok value
  | _, _, .nil, _, _, _, _, _, hm => by simp at hm
  | _, _, @FieldsAdmit.given first presence shape value fields members h hs, hd, room, hl,
      key, found, hm => by
    rw [fieldsDistinct, Bool.and_eq_true] at hd
    rw [fieldLevels] at hl
    rcases List.mem_cons.mp hm with he | hm
    · cases he
      exact ⟨presence, shape, by simp, read_draft h hd.1 (by omega)⟩
    · obtain ⟨p, s, hmem, hvalue⟩ := readFields_draft hs hd.2 room (by omega) key found hm
      exact ⟨p, s, by simp [hmem], hvalue⟩
  | _, _, .omitted _ hs, hd, room, hl, key, found, hm => by
    rw [fieldsDistinct, Bool.and_eq_true] at hd
    rw [fieldLevels] at hl
    obtain ⟨p, s, hmem, hvalue⟩ := readFields_draft hs hd.2 room (by omega) key found hm
    exact ⟨p, s, by simp [hmem], hvalue⟩

end

/-! ### Whole texts -/

section

variable {shape : Shape} {value : Json} (h : shape.Admits value) (hd : shape.distinct = true)
  (hl : shape.levels ≤ maxDepth)
include h hd hl

theorem readText_of_spells {text : String} (ht : Spells text.toList value.tokens) :
    shape.readText text = .ok value := by
  unfold readText
  rw [scan_of_spells ht]
  simp only [read_draft h hd hl, if_true]

/-- **The compact text** of a value is read back as the value. -/
theorem readText_compact : shape.readText value.compact = .ok value := by
  refine readText_of_spells h hd hl ?_
  rw [compact, String.toList_ofList]
  exact spells_compactChars value h.exact

/-- **The indented text** of a value is read back as the value. -/
theorem readText_pretty : shape.readText value.pretty = .ok value := by
  refine readText_of_spells h hd hl ?_
  rw [pretty, String.toList_ofList]
  exact spells_prettyChars 0 value h.exact

end

end Shape

end AbiRecovery.Json
