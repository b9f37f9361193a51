import AbiRecovery.Proofs.Program.References
import AbiRecovery.Proofs.Program.StructCatalog

/-!
# The instructions of an enum

The instruction enum of a file is selected among its enums with a name (`SelectedItem`), and what is
selected among their definitions is its definition (`selectedItem_of_selectEnum`). Each of its
entries that can be read has one instruction (`variants_recovered`), numbered in order, whose inputs
are those of the variant (`VariantInputs`): a catalog finds the last struct of a name, no name of a
type is empty (`TypePath.ne_of_mem_ofType`), and an input has the canonical name of its type
(`TypePath.canonical?_eq_some_iff`).

An entry that cannot be read has no definition, so a file has the same definitions without it, and
the same analysis (`Analysis.ofFile_readable`).
-/

namespace AbiRecovery

open AbiRecovery.Tree

/-! ### The selected enum -/

/-- An enum is named like an instruction enum. -/
def NamedInstruction (item : EnumItem) : Prop :=
  ∃ front back, item.ident.text = front ++ "Instruction" ++ back

/-- An enum is the **instruction enum** among enums: the only one with a name, or the first of
several that is named like an instruction enum, or else the first of several. -/
inductive SelectedItem (enums : List EnumItem) (item : EnumItem) : EnumSelection → Prop
  | sole {before after : List EnumItem} : enums = before ++ item :: after → item.ident.text ≠ "" →
    (∀ other ∈ before ++ after, other.ident.text = "") → SelectedItem enums item .sole
  | nameHint {before after : List EnumItem} : enums = before ++ item :: after →
    NamedInstruction item → (∀ earlier ∈ before, ¬ NamedInstruction earlier) →
      (∃ other ∈ before ++ after, other.ident.text ≠ "") → SelectedItem enums item .nameHint
  | firstDeclared {before after : List EnumItem} : enums = before ++ item :: after →
    item.ident.text ≠ "" → (∀ earlier ∈ before, earlier.ident.text = "") →
      (∀ other ∈ enums, ¬ NamedInstruction other) → (∃ other ∈ after, other.ident.text ≠ "") →
        SelectedItem enums item .firstDeclared

theorem Tree.Ident.text_of_name? {ident : Ident} {name : String} (h : ident.name? = some name) :
    ident.text = name ∧ name ≠ "" := by
  rw [Ident.name?, Option.ite_none_left_eq_some, Option.some.injEq] at h
  exact ⟨h.2, h.2 ▸ h.1⟩

theorem EnumDef.ofItem?_eq_none_iff {item : EnumItem} :
    EnumDef.ofItem? item = none ↔ item.ident.text = "" := by
  rw [EnumDef.ofItem?, Option.map_eq_none_iff, Ident.name?]
  split_ifs with hempty <;> simp [hempty]

theorem EnumDef.name_of_ofItem? {item : EnumItem} {enum : EnumDef}
    (h : EnumDef.ofItem? item = some enum) :
    enum.name = item.ident.text ∧ enum.variants = EnumDef.variantsOf item.entries := by
  obtain ⟨name, hname, rfl⟩ := Option.map_eq_some_iff.mp h
  exact ⟨(Ident.text_of_name? hname).1.symm, rfl⟩

theorem any_isHinted_iff {item : EnumItem} :
    (EnumDef.ofItem? item).any EnumDef.isHinted = true ↔ NamedInstruction item := by
  have hhint : Text.hasInfix instructionHint item.ident.text = true ↔ NamedInstruction item := by
    rw [Text.hasInfix, Text.hasInfixChars_iff]
    constructor
    · rintro ⟨front, back, htext⟩
      refine ⟨String.ofList front, String.ofList back, String.toList_inj.mp ?_⟩
      rw [← htext]
      simp [instructionHint]
    · rintro ⟨front, back, htext⟩
      exact ⟨front.toList, back.toList, by rw [htext]; simp [instructionHint]⟩
  cases hof : EnumDef.ofItem? item with
  | none =>
    have hempty := EnumDef.ofItem?_eq_none_iff.mp hof
    rw [← hhint, hempty]
    decide
  | some enum =>
    rw [← hhint, ← (EnumDef.name_of_ofItem? hof).1]
    rfl

theorem exists_other {before after : List EnumItem} {item : EnumItem}
    (h : 1 < ((before ++ item :: after).filterMap EnumDef.ofItem?).length) :
    ∃ other ∈ before ++ after, other.ident.text ≠ "" := by
  by_contra hnone
  simp only [not_exists, not_and, not_not] at hnone
  have hrest : (before ++ after).filterMap EnumDef.ofItem? = [] := by
    rw [List.filterMap_eq_nil_iff]
    exact fun other hother => EnumDef.ofItem?_eq_none_iff.mpr (hnone other hother)
  rw [List.filterMap_append, List.append_eq_nil_iff] at hrest
  have hone := List.length_filterMap_le EnumDef.ofItem? [item]
  rw [← List.singleton_append, List.filterMap_append, List.filterMap_append, hrest.1, hrest.2,
    List.nil_append, List.append_nil] at h
  rw [List.length_singleton] at hone
  omega

theorem selectedItem_of_hint {enums : List EnumItem} {item : EnumItem}
    (hlength : 1 < (enums.filterMap EnumDef.ofItem?).length)
    (hfind : (enums.find? fun item => (EnumDef.ofItem? item).any EnumDef.isHinted) = some item) :
    SelectedItem enums item .nameHint := by
  obtain ⟨hitem, before, after, rfl, hbefore⟩ := List.find?_eq_some_iff_append.mp hfind
  refine .nameHint rfl (any_isHinted_iff.mp hitem) (fun earlier hearlier => ?_)
    (exists_other hlength)
  rw [← any_isHinted_iff]
  simpa using hbefore earlier hearlier

theorem selectedItem_of_no_hint {enums before after : List EnumItem} {item : EnumItem}
    (henums : enums = before ++ item :: after) (hitem : item.ident.text ≠ "")
    (hbefore : ∀ earlier ∈ before, earlier.ident.text = "")
    (hlength : 1 < (enums.filterMap EnumDef.ofItem?).length)
    (hfind : (enums.find? fun item => (EnumDef.ofItem? item).any EnumDef.isHinted) = none) :
    SelectedItem enums item .firstDeclared := by
  subst henums
  obtain ⟨other, hother, hne⟩ := exists_other hlength
  have hafter : other ∈ after := by
    rcases List.mem_append.mp hother with hother | hother
    · exact absurd (hbefore other hother) hne
    · exact hother
  refine .firstDeclared rfl hitem hbefore (fun other hother => ?_) ⟨other, hafter, hne⟩
  rw [← any_isHinted_iff]
  exact List.find?_eq_none.mp hfind other hother

/-- **The selected definition** is that of the instruction enum. -/
theorem selectedItem_of_selectEnum {enums : List EnumItem} {enum : EnumDef}
    {selection : EnumSelection}
    (h : selectEnum (enums.filterMap EnumDef.ofItem?) = some (enum, selection)) :
    ∃ item, SelectedItem enums item selection ∧ EnumDef.ofItem? item = some enum := by
  rcases hdefs : enums.filterMap EnumDef.ofItem? with _ | ⟨first, others⟩
  · rw [hdefs] at h
    cases h
  · -- The first definition is that of the first enum with a name.
    obtain ⟨before, item, after, henums, hbefore, hitem, hafter⟩ :=
      List.filterMap_eq_cons_iff.mp hdefs
    have hname : item.ident.text ≠ "" := by
      intro hempty
      rw [EnumDef.ofItem?_eq_none_iff.mpr hempty] at hitem
      cases hitem
    simp only [EnumDef.ofItem?_eq_none_iff] at hbefore
    rcases others with _ | ⟨second, rest⟩
    · rw [hdefs] at h
      cases h
      refine ⟨item, .sole henums hname fun other hother => ?_, hitem⟩
      rcases List.mem_append.mp hother with hother | hother
      · exact hbefore other hother
      · exact EnumDef.ofItem?_eq_none_iff.mp (List.filterMap_eq_nil_iff.mp hafter other hother)
    · have hlength : 1 < (enums.filterMap EnumDef.ofItem?).length := by
        rw [hdefs]
        simp
      have hhint : (first :: second :: rest).find? EnumDef.isHinted =
          (enums.find? fun item => (EnumDef.ofItem? item).any EnumDef.isHinted).bind
            EnumDef.ofItem? := by
        rw [← hdefs, List.find?_filterMap]
      rw [hdefs] at h
      simp only [selectEnum, hhint] at h
      cases hfind : enums.find? fun item => (EnumDef.ofItem? item).any EnumDef.isHinted with
      | some hinted =>
        have hany := List.find?_some hfind
        rw [Option.any_eq_true] at hany
        obtain ⟨found, hfound, -⟩ := hany
        rw [hfind, Option.bind_some, hfound] at h
        cases h
        exact ⟨hinted, selectedItem_of_hint hlength hfind, hfound⟩
      | none =>
        rw [hfind] at h
        cases h
        exact ⟨item, selectedItem_of_no_hint henums hname hbefore hlength hfind, hitem⟩

/-! ### Names of types -/

/-- The **canonical name** of a flattened type: that of the outermost token that is no wrapper, or
of the innermost token if all are wrappers, as a primitive type if it is an alias of one. -/
inductive CanonicalName : List String → String → Prop
  | outermost {wrappers rest : List String} {token : String} :
    (∀ wrapper ∈ wrappers, wrapper ∈ wrapperTypes) → token ∉ wrapperTypes →
      CanonicalName (wrappers ++ token :: rest) (resolveAlias token)
  | innermost {wrappers : List String} {token : String} :
    (∀ wrapper ∈ wrappers ++ [token], wrapper ∈ wrapperTypes) →
      CanonicalName (wrappers ++ [token]) (resolveAlias token)

theorem TypePath.canonical?_eq_none_iff {path : TypePath} :
    path.canonical? = none ↔ path.tokens = [] := by
  unfold canonical?
  rw [Option.map_eq_none_iff, Option.or_eq_none_iff, List.getLast?_eq_none_iff]
  constructor
  · exact And.right
  · intro hempty
    rw [hempty]
    exact ⟨rfl, rfl⟩

theorem find?_wrappers {wrappers : List String} (h : ∀ wrapper ∈ wrappers, wrapper ∈ wrapperTypes) :
    (wrappers.find? fun token => !wrapperTypes.contains token) = none := by
  rw [List.find?_eq_none]
  intro wrapper hwrapper
  simpa using h wrapper hwrapper

/-- **The canonical name** of a type is found. -/
theorem TypePath.canonical?_eq_some_iff {tokens : List String} {name : String} :
    TypePath.canonical? ⟨tokens⟩ = some name ↔ CanonicalName tokens name := by
  unfold canonical?
  constructor
  · intro h
    obtain ⟨token, htoken, rfl⟩ := Option.map_eq_some_iff.mp h
    rcases Option.or_eq_some_iff.mp htoken with hfind | ⟨hnone, hlast⟩
    · obtain ⟨hkept, wrappers, rest, rfl, hwrappers⟩ := List.find?_eq_some_iff_append.mp hfind
      refine .outermost (fun wrapper hwrapper => ?_) (by simpa using hkept)
      simpa using hwrappers wrapper hwrapper
    · obtain ⟨wrappers, rfl⟩ := List.getLast?_eq_some_iff.mp hlast
      refine .innermost fun wrapper hwrapper => ?_
      simpa using List.find?_eq_none.mp hnone wrapper hwrapper
  · rintro (⟨hwrappers, htoken⟩ | hwrappers)
    · rw [List.find?_append, find?_wrappers hwrappers, Option.none_or,
        List.find?_cons_of_pos (by simpa using htoken), Option.some_or]
      rfl
    · rw [find?_wrappers hwrappers, Option.none_or, List.getLast?_concat]
      rfl

theorem Tree.Path.ne_of_mem_idents {path : Path} {name : String} (h : name ∈ path.idents) :
    name ≠ "" := by
  obtain ⟨segment, -, hname⟩ := List.mem_filterMap.mp h
  exact (Ident.text_of_name? hname).2

namespace TypePath

theorem ne_of_mem_argumentTokens {args : List TypeRef} {token : String}
    (h : token ∈ argumentTokens args) : token ≠ "" := by
  unfold argumentTokens at h
  split at h
  · exact Path.ne_of_mem_idents h
  · cases h

theorem ne_of_mem_segmentTokens {segments : List PathSegment} {token : String}
    (h : token ∈ segmentTokens segments) : token ≠ "" := by
  induction segments with
  | nil => cases h
  | cons segment segments ih =>
    rcases List.mem_append.mp h with hname | hrest
    · exact (Ident.text_of_name? (Option.mem_toList.mp hname)).2
    · split at hrest
      · exact ne_of_mem_argumentTokens hrest
      · exact ih hrest

theorem ne_of_mem_ofType {type : TypeRef} {token : String} (h : token ∈ (ofType type).tokens) :
    token ≠ "" := by
  fun_induction ofType type with
  | case1 path => exact ne_of_mem_segmentTokens h
  | case2 elem len =>
    have htoken := Option.mem_toList.mp h
    unfold arrayToken? at htoken
    split at htoken
    · cases htoken
      intro hempty
      have hchars := congrArg String.toList hempty
      simp at hchars
    · cases htoken
  | case3 elem ih => exact ih h
  | case4 elem ih => exact ih h
  | case5 => cases h

end TypePath

/-! ### Inputs -/

/-- An input **describes** a field: it has the name of the field and the canonical name of its type,
and no type exactly if the type could not be resolved. -/
structure Describes (field : Field) (input : InputField) : Prop where
  name : field.name? = some input.name
  type : ∀ name, input.type = some name ↔ CanonicalName (TypePath.ofType field.type).tokens name
  unresolved : input.type = none ↔ (TypePath.ofType field.type).tokens = []

/-- The **inputs that fields give**: one for each named field whose name could be read, in order. -/
inductive GivenBy : Fields → List InputField → Prop
  | named {fields : List Field} {inputs : List InputField} :
    List.Forall₂ Describes (fields.filter fun field => field.name?.isSome) inputs →
      GivenBy (.named fields) inputs
  | unnamed (fields : List Field) : GivenBy (.unnamed fields) []
  | unit : GivenBy .unit []
  | other : GivenBy .other []

/-- The **inputs of a variant** among the structs of a file. If the variant has one field without a
name, they are those of the last struct that its type names; if it has named fields, these give
them. -/
inductive VariantInputs (structs : List StructItem) : Fields → List InputField → Prop
  | struct {field : Field} {before after : List StructItem} {item : StructItem}
    {inputs : List InputField} :
    (TypePath.ofType field.type).leading? = some item.ident.text →
      structs = before ++ item :: after →
        (∀ later ∈ after, later.ident.text ≠ item.ident.text) → GivenBy item.fields inputs →
          VariantInputs structs (.unnamed [field]) inputs
  | undefined {field : Field} {type : String} :
    (TypePath.ofType field.type).leading? = some type → (∀ item ∈ structs, item.ident.text ≠ type) →
      VariantInputs structs (.unnamed [field]) []
  | unresolved {field : Field} : (TypePath.ofType field.type).leading? = none →
    VariantInputs structs (.unnamed [field]) []
  | named {fields : List Field} {inputs : List InputField} : GivenBy (.named fields) inputs →
    VariantInputs structs (.named fields) inputs
  | tuple {fields : List Field} : fields.length ≠ 1 → VariantInputs structs (.unnamed fields) []
  | unit : VariantInputs structs .unit []
  | other : VariantInputs structs .other []

theorem describes_canonical {field : Field} {name : String} (h : field.name? = some name) :
    Describes field ⟨name, (TypePath.ofType field.type).canonical?⟩ :=
  ⟨h, fun _ => TypePath.canonical?_eq_some_iff, TypePath.canonical?_eq_none_iff⟩

theorem givenBy_fieldInputs (fields : Fields) : GivenBy fields (fieldInputs fields) := by
  cases fields with
  | named fields =>
    have hgiven : List.Forall₂ Describes _ (fieldInputs (.named fields)) :=
      forall₂_filterMap (fun field input hinput => by
        obtain ⟨name, hname, rfl⟩ := Option.map_eq_some_iff.mp hinput
        exact describes_canonical hname) fields
    simp only [Option.isSome_map] at hgiven
    exact .named hgiven
  | unnamed fields => exact .unnamed fields
  | unit => exact .unit
  | other => exact .other

theorem InputsOf.variantInputs {structs : List StructItem} {type : String}
    {inputs : List InputField} {field : Field} (h : InputsOf type structs inputs)
    (hleading : (TypePath.ofType field.type).leading? = some type) :
    VariantInputs structs (.unnamed [field]) inputs := by
  cases h with
  | last hstructs htext hafter =>
    subst htext
    exact .struct hleading hstructs hafter (givenBy_fieldInputs _)
  | undefined hnone => exact .undefined hleading hnone

/-- **The inputs of a variant** are recovered. -/
theorem variantInputs_ofNamed (file : File) (position : ℕ) (name : String) (fields : Fields) :
    VariantInputs file.structs fields
      (Assembly.variantInputs (Catalog.ofStructs (Analysis.structDefs file))
        (EnumVariant.ofNamed position (name, fields))) := by
  cases fields with
  | named fields =>
    have hinputs : (fields.filterMap InlineField.ofField?).map
        (fun field => (⟨field.name, field.type.canonical?⟩ : InputField)) =
          fieldInputs (.named fields) := by
      simp only [fieldInputs, List.map_filterMap, InlineField.ofField?, Option.map_map,
        Function.comp_def]
    show VariantInputs file.structs (.named fields) ((fields.filterMap InlineField.ofField?).map _)
    rw [hinputs]
    exact .named (givenBy_fieldInputs _)
  | unnamed fields =>
    rcases fields with _ | ⟨field, _ | ⟨second, rest⟩⟩
    · exact .tuple (by simp)
    · cases hleading : (TypePath.ofType field.type).leading? with
      | none =>
        simp only [Assembly.variantInputs, EnumVariant.ofNamed, EnumVariant.payload?, hleading]
        exact .unresolved hleading
      | some type =>
        have hne : type ≠ "" := TypePath.ne_of_mem_ofType (List.mem_of_mem_head? hleading)
        simp only [Assembly.variantInputs, EnumVariant.ofNamed, EnumVariant.payload?, hleading]
        exact (inputsOf_structInputs file hne).variantInputs hleading
    · exact .tuple (by simp)
  | unit => exact .unit
  | other => exact .other

/-! ### Variants -/

/-- Whether an entry of an enum is a variant with a name that could be read. -/
def Tree.EnumEntry.isReadable : EnumEntry → Bool
  | .variant ident _ => ident.text ≠ ""
  | .other => false

/-- An instruction is **recovered** for an entry of an enum at a position. -/
structure VariantRecovered (file : File) (entry : EnumEntry × ℕ) (instruction : Instruction) :
    Prop where
  code : instruction.code = UInt64.ofNat entry.2
  variant : ∃ ident fields, entry.1 = .variant ident fields ∧ instruction.name = ident.text ∧
    VariantInputs file.structs fields instruction.inputs

theorem isSome_ofEntry? (entry : EnumEntry) :
    (EnumVariant.ofEntry? entry).isSome = entry.isReadable := by
  cases entry with
  | variant ident fields =>
    rw [EnumVariant.ofEntry?, Option.isSome_map, Ident.name?, EnumEntry.isReadable]
    split_ifs with hempty <;> simp [hempty]
  | other => rfl

/-- **The instructions of an enum** are recovered from its readable entries, in order. -/
theorem variants_recovered (file : File) (builders : List Builder) (enumName : String)
    (entries : List EnumEntry) :
    List.Forall₂ (VariantRecovered file) (entries.filter EnumEntry.isReadable).zipIdx
      ((EnumDef.variantsOf entries).map (Assembly.variantInstruction
        (Catalog.ofStructs (Analysis.structDefs file)) builders enumName)) := by
  have hentries : List.Forall₂ (fun entry named => EnumVariant.ofEntry? entry = some named)
      (entries.filter EnumEntry.isReadable) (entries.filterMap EnumVariant.ofEntry?) := by
    rw [← funext isSome_ofEntry?]
    exact forall₂_filterMap (fun _ _ => id) entries
  unfold EnumDef.variantsOf
  rw [List.mapIdx_eq_zipIdx_map, List.map_map, List.forall₂_map_right_iff]
  refine (forall₂_zipIdx hentries 0).imp ?_
  rintro ⟨entry, position⟩ ⟨⟨name, fields⟩, position'⟩ ⟨hentry, hposition⟩
  cases hposition
  cases entry with
  | variant ident _ =>
    obtain ⟨_, hname, heq⟩ := Option.map_eq_some_iff.mp hentry
    cases heq
    exact ⟨rfl, ident, fields, rfl, (Ident.text_of_name? hname).1.symm,
      variantInputs_ofNamed file position name fields⟩
  | other => cases hentry

/-! ### Entries that are not read -/

namespace Tree

/-- An enum without the entries that are not read. -/
def EnumItem.readable (item : EnumItem) : EnumItem :=
  { item with entries := item.entries.filter EnumEntry.isReadable }

/-- An item without the entries of an enum that are not read. -/
def Item.readable : Item → Item
  | .enum item => .enum item.readable
  | item => item

/-- A file without the entries of its enums that are not read. -/
def File.readable (file : File) : File :=
  ⟨file.items.map Item.readable⟩

end Tree

theorem EnumDef.ofItem?_readable (item : EnumItem) :
    EnumDef.ofItem? item.readable = EnumDef.ofItem? item := by
  have hentries : (item.entries.filter EnumEntry.isReadable).filterMap EnumVariant.ofEntry? =
      item.entries.filterMap EnumVariant.ofEntry? := by
    rw [List.filterMap_filter]
    refine List.filterMap_congr fun entry _ => ?_
    rw [← isSome_ofEntry?]
    cases EnumVariant.ofEntry? entry <;> rfl
  simp only [EnumDef.ofItem?, EnumItem.readable, EnumDef.variantsOf, hentries]

theorem filterMap_readable {α : Type} {select? : Item → Option α}
    (h : ∀ item, select? item.readable = select? item) (items : List Item) :
    (items.map Item.readable).filterMap select? = items.filterMap select? := by
  rw [List.filterMap_map]
  exact List.filterMap_congr fun item _ => h item

/-- **Entries that are not read** do not matter for the analysis, nor for what is reported. -/
theorem Analysis.ofFile_readable (file : File) :
    Analysis.ofFile file.readable = Analysis.ofFile file ∧
      Analysis.eventsOf file.readable = Analysis.eventsOf file := by
  have henums : file.readable.enums.filterMap EnumDef.ofItem? =
      file.enums.filterMap EnumDef.ofItem? := by
    unfold File.enums
    rw [List.filterMap_filterMap, List.filterMap_filterMap]
    refine filterMap_readable (fun item => ?_) file.items
    cases item with
    | enum item => exact EnumDef.ofItem?_readable item
    | use | struct | impl | function | other => rfl
  have huses : file.readable.uses = file.uses :=
    filterMap_readable (fun item => by cases item <;> rfl) file.items
  have hstructs : file.readable.structs = file.structs :=
    filterMap_readable (fun item => by cases item <;> rfl) file.items
  have himpls : file.readable.impls = file.impls :=
    filterMap_readable (fun item => by cases item <;> rfl) file.items
  have hfunctions : file.readable.functions = file.functions :=
    filterMap_readable (fun item => by cases item <;> rfl) file.items
  have hanalysis : Analysis.ofFile file.readable = Analysis.ofFile file := by
    simp only [Analysis.ofFile, Analysis.structDefs, henums, hstructs, himpls, hfunctions, huses]
  refine ⟨hanalysis, ?_⟩
  simp only [Analysis.eventsOf, hanalysis, Analysis.structDefs, hstructs]

/-! ### Files -/

theorem codes_of_recovered {file : File} {entries : List EnumEntry}
    {instructions : List Instruction}
    (h : List.Forall₂ (VariantRecovered file) entries.zipIdx instructions)
    (hsize : instructions.length ≤ UInt64.size) :
    instructions.map (fun instruction => instruction.code.toNat) =
      List.range instructions.length := by
  have hlength : entries.length = instructions.length := by
    rw [← h.length_eq, List.length_zipIdx]
  have hcodes : entries.zipIdx.map (fun entry => (UInt64.ofNat entry.2).toNat) =
      instructions.map fun instruction => instruction.code.toNat := by
    rw [← List.forall₂_eq_eq_eq, List.forall₂_map_left_iff, List.forall₂_map_right_iff]
    exact h.imp fun entry instruction hrecovered => by rw [hrecovered.code]
  have hpositions : entries.zipIdx.map Prod.snd = List.range instructions.length := by
    rw [List.zipIdx_map_snd, hlength, List.range_eq_range']
  rw [← hcodes, ← hpositions]
  refine List.map_congr_left fun entry hentry => ?_
  have hlt : entry.2 < instructions.length := by
    rw [← List.mem_range, ← hpositions]
    exact List.mem_map_of_mem hentry
  exact UInt64.toNat_ofNat_of_lt' (by omega)

/-- **The instructions of an enum** are recovered. If an enum is the source of the opcodes, it is
the instruction enum of the file. There is one instruction for each of its variants with a name, in
the order of the enum: its opcode is the number of variants before it, and its inputs are those of
the variant. Entries of enums that are not read, wherever they stand, do not matter at all. -/
theorem instructions_of_enum {file : File} {name : String} {selection : EnumSelection}
    (h : (Analysis.ofFile file).source = .enum name selection) :
    (∃ item, SelectedItem file.enums item selection ∧ item.ident.text = name ∧
      List.Forall₂ (VariantRecovered file) (item.entries.filter EnumEntry.isReadable).zipIdx
        (Analysis.ofFile file).instructions) ∧
    ((Analysis.ofFile file).instructions.length ≤ UInt64.size →
      (Analysis.ofFile file).instructions.map (fun instruction => instruction.code.toNat) =
        List.range (Analysis.ofFile file).instructions.length) ∧
    ∀ file' : File, file'.readable = file.readable →
      Analysis.ofFile file' = Analysis.ofFile file ∧
        Analysis.eventsOf file' = Analysis.eventsOf file := by
  have hsource : Assembly.source (file.enums.filterMap EnumDef.ofItem?)
      (Dispatch.ofImpls file.impls) = .enum name selection := h
  unfold Assembly.source at hsource
  split at hsource
  · next enum selection' hselect =>
    cases hsource
    obtain ⟨item, hselected, hitem⟩ := selectedItem_of_selectEnum hselect
    obtain ⟨hname, hvariants⟩ := EnumDef.name_of_ofItem? hitem
    have hinstructions : (Analysis.ofFile file).instructions =
        (EnumDef.variantsOf item.entries).map (Assembly.variantInstruction
          (Catalog.ofStructs (Analysis.structDefs file))
          (file.functions.filterMap Builder.ofFunction?) enum.name) := by
      simp only [Analysis.ofFile, Assembly.instructions, hselect, hvariants]
    have hrecovered := variants_recovered file (file.functions.filterMap Builder.ofFunction?)
      enum.name item.entries
    rw [← hinstructions] at hrecovered
    refine ⟨⟨item, hselected, hname.symm, hrecovered⟩, codes_of_recovered hrecovered, ?_⟩
    intro file' hreadable
    obtain ⟨hanalysis, hevents⟩ := Analysis.ofFile_readable file
    obtain ⟨hanalysis', hevents'⟩ := Analysis.ofFile_readable file'
    rw [hreadable] at hanalysis' hevents'
    exact ⟨hanalysis'.symm.trans hanalysis, hevents'.symm.trans hevents⟩
  · split_ifs at hsource

/-- A file with the enum `PoolInstruction` and other entries in it. The type `Args` is defined
twice. -/
def poolFile (others : List EnumEntry) : File :=
  ⟨[.struct ⟨.everywhere, ⟨"Args"⟩, .unit⟩, .enum ⟨.everywhere, ⟨"State"⟩, []⟩,
    .enum ⟨.everywhere, ⟨"PoolInstruction"⟩, [.variant ⟨"Init"⟩ .unit] ++ others ++
      [.variant ⟨"Pay"⟩ (.unnamed [⟨.inherited, none, .path ⟨[⟨⟨"Args"⟩, .none⟩]⟩⟩]),
        .variant ⟨"Set"⟩
          (.named [⟨.inherited, some ⟨"rate"⟩, .other⟩, ⟨.inherited, none, .other⟩])]⟩,
    .struct ⟨.everywhere, ⟨"Args"⟩, .named [⟨.everywhere, some ⟨"amount"⟩,
      .path ⟨[⟨⟨"Option"⟩, .angleBracketed [.path ⟨[⟨⟨"NonZeroU64"⟩, .none⟩]⟩]⟩]⟩⟩]⟩]⟩

/-- Entries that are not read, in the middle of the enum, leave the three instructions as they are.
-/
theorem instructions_of_poolFile :
    (Analysis.ofFile (poolFile [])).source = .enum "PoolInstruction" .nameHint ∧
      (Analysis.ofFile (poolFile [])).instructions =
        [⟨0, "Init", [], none⟩, ⟨1, "Pay", [⟨"amount", some "u64"⟩], none⟩,
          ⟨2, "Set", [⟨"rate", none⟩], none⟩] ∧
      (∃ item, SelectedItem (poolFile []).enums item .nameHint ∧
        item.ident.text = "PoolInstruction" ∧
        List.Forall₂ (VariantRecovered (poolFile []))
          (item.entries.filter EnumEntry.isReadable).zipIdx
          (Analysis.ofFile (poolFile [])).instructions) ∧
      Analysis.ofFile (poolFile [.other, .variant ⟨""⟩ .unit]) = Analysis.ofFile (poolFile []) := by
  have hsource : (Analysis.ofFile (poolFile [])).source = .enum "PoolInstruction" .nameHint := by
    decide
  have hinstructions : (Analysis.ofFile (poolFile [])).instructions =
      [⟨0, "Init", [], none⟩, ⟨1, "Pay", [⟨"amount", some "u64"⟩], none⟩,
        ⟨2, "Set", [⟨"rate", none⟩], none⟩] := by decide
  obtain ⟨hitem, -, hothers⟩ := instructions_of_enum hsource
  exact ⟨hsource, hinstructions, hitem, (hothers (poolFile [.other, .variant ⟨""⟩ .unit]) rfl).1⟩

end AbiRecovery
