import AbiRecovery.Proofs.Abi.Merge
import AbiRecovery.Proofs.Program.BuilderRecovery
import AbiRecovery.Proofs.Program.ItemOrder

/-!
# Edits that leave the interface alone

A file is `bare` when it has no imports, no parameters of functions, and no visibility but the
default. Two files with the same bare file differ only in these.

What is recovered of an item of the bare file is what is recovered of the item, in its bare form
(`StructDef.ofItem?_bare`, `EnumDef.ofItem?_bare`, `Builder.ofFunction?_bare`). For a function this
is because a parameter has no initial value: a name that is only a parameter is followed nowhere,
just like one that is not bound at all (`Scope.initializer?_ofFunction`). So a pass over the bare
items gathers the bare form of what a pass over the items gathers (`Pass.bare_foldl`), and the
instructions are assembled from that alone (`Assembly.instructions_bare`).
-/

namespace AbiRecovery

namespace Tree

/-! ### Bare files -/

/-- A field without its visibility. -/
def Field.bare (field : Field) : Field :=
  { field with visibility := default }

/-- Fields without their visibilities. -/
def Fields.bare : Fields → Fields
  | .named fields => .named (fields.map Field.bare)
  | .unnamed fields => .unnamed (fields.map Field.bare)
  | .unit => .unit
  | .other => .other

/-- An entry of an enum without the visibilities of its fields. -/
def EnumEntry.bare : EnumEntry → EnumEntry
  | .variant ident fields => .variant ident fields.bare
  | .other => .other

/-- A struct without its visibilities. -/
def StructItem.bare (item : StructItem) : StructItem :=
  { item with visibility := default, fields := item.fields.bare }

/-- An enum without its visibilities. -/
def EnumItem.bare (item : EnumItem) : EnumItem :=
  { item with visibility := default, entries := item.entries.map EnumEntry.bare }

/-- A function without its visibility and its parameters. -/
def FunctionItem.bare (item : FunctionItem) : FunctionItem :=
  { item with visibility := default, signature := { item.signature with inputs := [] } }

/-- An item without its visibilities and the parameters of a function; nothing of an import. -/
def Item.bare? : Item → Option Item
  | .use _ => none
  | .struct item => some (.struct item.bare)
  | .enum item => some (.enum item.bare)
  | .impl item => some (.impl item)
  | .function item => some (.function item.bare)
  | .other => some .other

/-- A file without its imports, its visibilities and the parameters of its functions. -/
def File.bare (file : File) : File :=
  ⟨file.items.filterMap Item.bare?⟩

end Tree

open AbiRecovery.Tree

/-- What is recovered of each bare part is the bare form of what is recovered of the part, so this
also holds of a list of parts. -/
theorem filterMap_map_bare {α β : Type} {bare : α → α} {bare' : β → β} {recover? : α → Option β}
    (h : ∀ part, recover? (bare part) = (recover? part).map bare') (parts : List α) :
    (parts.map bare).filterMap recover? = (parts.filterMap recover?).map bare' := by
  rw [List.filterMap_map, List.map_filterMap]
  exact List.filterMap_congr fun part _ => h part

/-! ### Structs -/

/-- A field of a struct as one that is not public. -/
def FieldDef.bare (field : FieldDef) : FieldDef :=
  { field with isPublic := false }

/-- A struct as one that is not public. -/
def StructDef.bare (struct : StructDef) : StructDef :=
  { struct with isPublic := false, fields := struct.fields.map FieldDef.bare }

theorem FieldDef.ofField?_bare (field : Field) :
    FieldDef.ofField? field.bare = (FieldDef.ofField? field).map FieldDef.bare := by
  unfold FieldDef.ofField?
  rw [Option.map_map]
  rfl

theorem StructDef.ofItem?_bare (item : StructItem) :
    StructDef.ofItem? item.bare = (StructDef.ofItem? item).map StructDef.bare := by
  obtain ⟨visibility, ident, fields⟩ := item
  unfold StructDef.ofItem?
  rw [Option.map_map]
  refine congrArg (fun struct => ident.name?.map struct) (funext fun name => ?_)
  cases fields with
  | named fields =>
    exact congrArg (StructDef.mk name false) (filterMap_map_bare FieldDef.ofField?_bare fields)
  | unnamed _ | unit | other => rfl

namespace Catalog

/-- A catalog with its structs as ones that are not public. -/
def bare (catalog : Catalog) : Catalog :=
  { catalog with structs := catalog.structs.map StructDef.bare }

theorem insert_bare (catalog : Catalog) (struct : StructDef) :
    catalog.bare.insert struct.bare = (catalog.insert struct).bare := by
  unfold insert
  have hposition : catalog.bare.position? struct.bare.name = catalog.position? struct.name := rfl
  rw [hposition]
  cases catalog.position? struct.name with
  | none =>
    simp only [bare, List.map_append, List.length_map]
    rfl
  | some position =>
    simp only [bare, List.map_set]
    rfl

theorem foldl_insert_bare (catalog : Catalog) (structs : List StructDef) :
    (structs.map StructDef.bare).foldl insert catalog.bare = (structs.foldl insert catalog).bare := by
  induction structs generalizing catalog with
  | nil => rfl
  | cons struct structs ih => rw [List.map_cons, List.foldl_cons, insert_bare, ih, List.foldl_cons]

theorem eventsFrom_bare (catalog : Catalog) (structs : List StructDef) :
    catalog.bare.eventsFrom (structs.map StructDef.bare) = catalog.eventsFrom structs := by
  induction structs generalizing catalog with
  | nil => rfl
  | cons struct structs ih =>
    rw [List.map_cons, eventsFrom, insert_bare, ih, eventsFrom]
    rfl

theorem get?_bare (catalog : Catalog) (name : String) :
    catalog.bare.get? name = (catalog.get? name).map StructDef.bare := by
  unfold get?
  rw [Option.map_bind]
  refine congrArg (Option.bind (catalog.position? name)) (funext fun position => ?_)
  simp [bare]

end Catalog

/-! ### Enums -/

/-- An enum as one that is not public. -/
def EnumDef.bare (enum : EnumDef) : EnumDef :=
  { enum with isPublic := false }

theorem InlineField.ofField?_bare (field : Field) :
    InlineField.ofField? field.bare = InlineField.ofField? field := rfl

theorem EnumVariant.payload?_bare (fields : Fields) :
    EnumVariant.payload? fields.bare = EnumVariant.payload? fields := by
  cases fields with
  | unnamed fields => rcases fields with _ | ⟨field, _ | _⟩ <;> rfl
  | named _ | unit | other => rfl

theorem EnumVariant.inlineFields?_bare (fields : Fields) :
    EnumVariant.inlineFields? fields.bare = EnumVariant.inlineFields? fields := by
  cases fields with
  | named fields =>
    simp only [Fields.bare, EnumVariant.inlineFields?, List.filterMap_map, Function.comp_def,
      InlineField.ofField?_bare]
  | unnamed _ | unit | other => rfl

theorem EnumDef.variantsOf_bare (entries : List EnumEntry) :
    EnumDef.variantsOf (entries.map EnumEntry.bare) = EnumDef.variantsOf entries := by
  have hentry : ∀ entry : EnumEntry, EnumVariant.ofEntry? entry.bare =
      (EnumVariant.ofEntry? entry).map fun named => (named.1, named.2.bare) := by
    rintro (⟨ident, fields⟩ | _)
    · simp only [EnumEntry.bare, EnumVariant.ofEntry?, Option.map_map]
      rfl
    · rfl
  have hnamed : ∀ (position : ℕ) (named : String × Fields),
      EnumVariant.ofNamed position (named.1, named.2.bare) = EnumVariant.ofNamed position named := by
    intro position named
    simp only [EnumVariant.ofNamed, EnumVariant.payload?_bare, EnumVariant.inlineFields?_bare]
  unfold EnumDef.variantsOf
  rw [filterMap_map_bare hentry]
  refine List.ext_getElem? fun position => ?_
  rw [List.getElem?_mapIdx, List.getElem?_map, Option.map_map, List.getElem?_mapIdx]
  exact Option.map_congr fun named _ => hnamed position named

theorem EnumDef.ofItem?_bare (item : EnumItem) :
    EnumDef.ofItem? item.bare = (EnumDef.ofItem? item).map EnumDef.bare := by
  unfold EnumDef.ofItem?
  rw [Option.map_map]
  simp only [EnumItem.bare, EnumDef.variantsOf_bare]
  rfl

theorem selectEnum_bare (enums : List EnumDef) :
    selectEnum (enums.map EnumDef.bare) =
      (selectEnum enums).map fun selected => (selected.1.bare, selected.2) := by
  rcases enums with _ | ⟨first, _ | ⟨second, rest⟩⟩
  · rfl
  · rfl
  · have hfind : ((first :: second :: rest).map EnumDef.bare).find? EnumDef.isHinted =
        ((first :: second :: rest).find? EnumDef.isHinted).map EnumDef.bare := by
      rw [List.find?_map]
      rfl
    simp only [List.map_cons] at hfind
    simp only [List.map_cons, selectEnum, hfind]
    cases (first :: second :: rest).find? EnumDef.isHinted <;> rfl

/-! ### Functions -/

/-- A builder without its parameters. -/
def Builder.bare (builder : Builder) : Builder :=
  { builder with parameters := [] }

theorem Scope.parameters_bare (item : FunctionItem) :
    (Scope.ofFunction item.bare).parameters = [] := by
  refine List.filterMap_eq_nil_iff.mpr fun binding h => ?_
  obtain ⟨stmt, -, hstmt⟩ := List.mem_filterMap.mp h
  cases stmt with
  | binding pat init =>
    obtain ⟨name, -, rfl⟩ := Option.map_eq_some_iff.mp hstmt
    rfl
  | expr | semi | other => cases hstmt

theorem Builder.ofFunction?_bare (item : FunctionItem) :
    Builder.ofFunction? item.bare = (Builder.ofFunction? item).map Builder.bare := by
  have hinit : ∀ name, (Scope.ofFunction item.bare).initializer? name =
      (Scope.ofFunction item).initializer? name := by
    intro name
    rw [Scope.initializer?_ofFunction, Scope.initializer?_ofFunction]
    rfl
  have hreference : Builder.reference? (Scope.ofFunction item.bare) =
      Builder.reference? (Scope.ofFunction item) := by
    funext construction
    unfold Builder.reference? Scope.reference?
    simp only [hinit]
  have haccounts : Builder.accounts? (Scope.ofFunction item.bare) =
      Builder.accounts? (Scope.ofFunction item) := by
    funext construction
    unfold Builder.accounts? Scope.roles?
    simp only [hinit]
  unfold Builder.ofFunction?
  simp only [hreference, haccounts, Scope.parameters_bare, Option.map_map]
  rfl

/-! ### The pass -/

namespace Pass

/-- What has been gathered, without the imports, the visibilities and the parameters. -/
def bare (pass : Pass) : Pass :=
  { pass with
    paths := []
    structs := pass.structs.bare
    enums := pass.enums.map EnumDef.bare
    builders := pass.builders.map Builder.bare }

/-- **One step**: an item in its bare form adds the bare form of what the item adds. -/
theorem bare_step (pass : Pass) (item : Item) :
    (pass.step item).bare = item.bare?.toList.foldl step pass.bare := by
  cases item with
  | use tree => rfl
  | struct item =>
    have hstructs : (StructDef.ofItem? item.bare).toList =
        (StructDef.ofItem? item).toList.map StructDef.bare := by
      rw [StructDef.ofItem?_bare, Option.toList_map]
    simp only [Item.bare?, Option.toList_some, List.foldl_cons, List.foldl_nil, step, bare,
      hstructs, Catalog.foldl_insert_bare, Catalog.eventsFrom_bare]
  | enum item =>
    have henums : (EnumDef.ofItem? item.bare).toList =
        (EnumDef.ofItem? item).toList.map EnumDef.bare := by
      rw [EnumDef.ofItem?_bare, Option.toList_map]
    simp only [Item.bare?, Option.toList_some, List.foldl_cons, List.foldl_nil, step, bare, henums,
      List.map_append]
  | impl item => rfl
  | function item =>
    have hbuilders : (Builder.ofFunction? item.bare).toList =
        (Builder.ofFunction? item).toList.map Builder.bare := by
      rw [Builder.ofFunction?_bare, Option.toList_map]
    simp only [Item.bare?, Option.toList_some, List.foldl_cons, List.foldl_nil, step, bare,
      hbuilders, List.map_append]
  | other => rfl

/-- **A whole pass** over the bare items gathers the bare form of what the items give. -/
theorem bare_foldl (items : List Item) (pass : Pass) :
    (items.foldl step pass).bare = (items.filterMap Item.bare?).foldl step pass.bare := by
  induction items generalizing pass with
  | nil => rfl
  | cons item items ih =>
    rw [List.foldl_cons, ih, bare_step, List.filterMap_eq_flatMap_toList,
      List.filterMap_eq_flatMap_toList, List.flatMap_cons, List.foldl_append]

end Pass

/-! ### Assembling -/

namespace Assembly

theorem structInputs_bare (structs : Catalog) (payload : String) :
    structInputs structs.bare payload = structInputs structs payload := by
  unfold structInputs
  rw [Catalog.get?_bare]
  cases structs.get? payload with
  | none => rfl
  | some struct =>
    simp only [Option.map_some, StructDef.bare, List.map_map]
    rfl

theorem accounts?_bare (builders : List Builder) (isBuilder : Builder → Bool)
    (h : ∀ builder, isBuilder builder.bare = isBuilder builder) :
    accounts? (builders.map Builder.bare) isBuilder = accounts? builders isBuilder := by
  unfold accounts?
  have hcomp : isBuilder ∘ Builder.bare = isBuilder := funext h
  rw [List.find?_map, hcomp]
  cases builders.find? isBuilder <;> rfl

theorem source_bare (enums : List EnumDef) (dispatch : List DispatchEntry) :
    source (enums.map EnumDef.bare) dispatch = source enums dispatch := by
  unfold source
  rw [selectEnum_bare]
  cases selectEnum enums <;> rfl

theorem instructions_bare (structs : Catalog) (enums : List EnumDef)
    (dispatch : List DispatchEntry) (builders : List Builder) :
    instructions structs.bare (enums.map EnumDef.bare) dispatch (builders.map Builder.bare) =
      instructions structs enums dispatch builders := by
  have hvariant : ∀ enumName variant,
      variantInstruction structs.bare (builders.map Builder.bare) enumName variant =
        variantInstruction structs builders enumName variant := by
    intro enumName variant
    have haccounts := accounts?_bare builders (fun builder => builder.produces enumName variant.name)
      fun builder => rfl
    simp only [variantInstruction, variantInputs, structInputs_bare, haccounts]
  have hentry : entryInstruction? structs.bare (builders.map Builder.bare) =
      entryInstruction? structs builders := by
    funext entry
    have haccounts := fun payload =>
      accounts?_bare builders (fun builder => builder.producesLeaf payload) fun builder => rfl
    have hinputs : structInputs structs.bare = structInputs structs :=
      funext (structInputs_bare structs)
    simp only [entryInstruction?, hinputs, haccounts]
  unfold instructions
  rw [selectEnum_bare, hentry]
  rcases selectEnum enums with _ | ⟨enum, selection⟩
  · rfl
  · exact List.map_congr_left fun variant _ => hvariant enum.name variant

end Assembly

/-! ### The analysis -/

namespace Pass

theorem instructions_bare (pass : Pass) :
    pass.bare.analysis.instructions = pass.analysis.instructions :=
  Assembly.instructions_bare pass.structs pass.enums pass.dispatch pass.builders

theorem source_bare (pass : Pass) : pass.bare.analysis.source = pass.analysis.source :=
  Assembly.source_bare pass.enums pass.dispatch

theorem events_bare (pass : Pass) : pass.bare.report.2 = pass.report.2 := by
  have hsource : pass.bare.analysis.sourceEvents = pass.analysis.sourceEvents := by
    unfold Analysis.sourceEvents
    rw [source_bare]
    simp only [analysis, bare, List.length_map]
  have hsummary : pass.bare.analysis.summary = pass.analysis.summary := by
    unfold Analysis.summary
    rw [source_bare, instructions_bare]
    simp only [analysis, bare, Catalog.bare, Catalog.size, List.length_map]
  unfold report
  rw [hsource, hsummary]
  rfl

end Pass

theorem Document.fingerprint_ofAnalysis (name : String) (analysis : Analysis) :
    (ofAnalysis name analysis).metadata.fingerprint =
      fingerprintOf (analysis.instructions.foldl addInstruction []) := by
  rw [← instructions_ofAnalysis name analysis]
  rfl

/-- The analysis of a bare file has the same interface, and the same is reported. -/
theorem Analysis.ofFile_bare (file : File) :
    (ofFile file.bare).instructions = (ofFile file).instructions ∧
      (ofFile file.bare).source = (ofFile file).source ∧
      (ofFile file.bare).dispatch = (ofFile file).dispatch ∧
      eventsOf file.bare = eventsOf file := by
  set pass := file.items.foldl Pass.step { } with hpass
  have hreport : pass.report = (ofFile file, eventsOf file) := Pass.report_foldl file
  have hbare : pass.bare.report = (ofFile file.bare, eventsOf file.bare) := by
    rw [hpass, Pass.bare_foldl]
    exact Pass.report_foldl file.bare
  have hfile : pass.analysis = ofFile file := congrArg Prod.fst hreport
  have hfile' : pass.bare.analysis = ofFile file.bare := congrArg Prod.fst hbare
  rw [← hfile, ← hfile', pass.instructions_bare, pass.source_bare]
  refine ⟨rfl, rfl, rfl, ?_⟩
  calc eventsOf file.bare = pass.bare.report.2 := by rw [hbare]
    _ = pass.report.2 := pass.events_bare
    _ = eventsOf file := by rw [hreport]

/-- **Edits that leave the interface alone.** If two files differ only in their imports, in the
visibilities, and in the parameters of functions, then the same instructions are recovered from
them, from the same source and with the same dispatch, the same is reported, and their documents
have the same fingerprint, under whatever names. -/
theorem neutral_edits_keep_interface {file file' : File} (h : file'.bare = file.bare) :
    (Analysis.ofFile file').instructions = (Analysis.ofFile file).instructions ∧
      (Analysis.ofFile file').source = (Analysis.ofFile file).source ∧
      (Analysis.ofFile file').dispatch = (Analysis.ofFile file).dispatch ∧
      Analysis.eventsOf file' = Analysis.eventsOf file ∧
      ∀ name name' : String,
        (Document.ofAnalysis name' (Analysis.ofFile file')).metadata.fingerprint =
          (Document.ofAnalysis name (Analysis.ofFile file)).metadata.fingerprint := by
  obtain ⟨hinstructions, hsource, hdispatch, hevents⟩ := Analysis.ofFile_bare file
  obtain ⟨hinstructions', hsource', hdispatch', hevents'⟩ := Analysis.ofFile_bare file'
  rw [h] at hinstructions' hsource' hdispatch' hevents'
  have hsame : (Analysis.ofFile file').instructions = (Analysis.ofFile file).instructions :=
    hinstructions'.symm.trans hinstructions
  refine ⟨hsame, hsource'.symm.trans hsource, hdispatch'.symm.trans hdispatch,
    hevents'.symm.trans hevents, fun name name' => ?_⟩
  rw [Document.fingerprint_ofAnalysis, Document.fingerprint_ofAnalysis, hsame]

/-- A file with an instruction and a function that builds it:
`let op = Op::Send; let metas = vec![payer]; Instruction { data: op.pack(), accounts: metas }`. -/
def sendFile (visibility : Visibility) (uses : List Item) (inputs : List Param) : File :=
  ⟨uses ++
    [.struct ⟨visibility, ⟨"Args"⟩,
        .named [⟨visibility, some ⟨"amount"⟩, .path (plainPath ["u64"])⟩]⟩,
      .enum ⟨visibility, ⟨"Op"⟩,
        [.variant ⟨"Send"⟩ (.unnamed [⟨visibility, none, .path (plainPath ["Args"])⟩])]⟩,
      .function ⟨visibility, ⟨⟨"send"⟩, inputs⟩,
        ⟨[.binding (.ident ⟨"op"⟩) (some (.path (plainPath ["Op", "Send"]))),
          .binding (.ident ⟨"metas"⟩) (some (.macroCall ⟨plainPath ["vec"], [.ident "payer"]⟩)),
          .expr (.struct (plainPath ["Instruction"])
            [⟨⟨"data"⟩, .methodCall (.path (plainPath ["op"])) ⟨"pack"⟩ []⟩,
              ⟨⟨"accounts"⟩, .path (plainPath ["metas"])⟩])]⟩⟩]⟩

/-- The file made public, with an import and with parameters that have the names of locals. -/
def sendFileEdited : File :=
  sendFile .everywhere [.use (.path ⟨"api"⟩ (.name ⟨"Op"⟩))]
    (["data", "accounts", "op", "metas"].map fun name => .typed (.ident ⟨name⟩) .other)

theorem sendFileEdited_keeps_interface :
    sendFileEdited.bare = (sendFile .inherited [] []).bare ∧
      (Analysis.ofFile sendFileEdited).instructions =
        [⟨0, "Send", [⟨"amount", some "u64"⟩], some [⟨some "payer", false, false⟩]⟩] ∧
      (Document.ofAnalysis "edited" (Analysis.ofFile sendFileEdited)).metadata.fingerprint =
        (Document.ofAnalysis "plain"
          (Analysis.ofFile (sendFile .inherited [] []))).metadata.fingerprint := by
  have hbare : sendFileEdited.bare = (sendFile .inherited [] []).bare := rfl
  have hplain : (Analysis.ofFile (sendFile .inherited [] [])).instructions =
      [⟨0, "Send", [⟨"amount", some "u64"⟩], some [⟨some "payer", false, false⟩]⟩] := by decide
  obtain ⟨hinstructions, -, -, -, hfingerprint⟩ := neutral_edits_keep_interface hbare
  exact ⟨hbare, hinstructions.trans hplain, hfingerprint "plain" "edited"⟩

end AbiRecovery
