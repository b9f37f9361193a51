import AbiRecovery.Proofs.Program.BuilderRecovery
import Mathlib.Data.List.Forall2

/-!
# Functions that are added to a file

Functions that are added after the last item of a file can only tell more about it. The source of
the opcodes and the instructions stay as they are, and so does each account list that is known: an
instruction has the accounts of the first function that matches it, and the functions of the file
come first (`accounts?_append`).

A function that matches an instruction but whose accounts were not recovered keeps later ones from
giving it any. So an instruction gets accounts from an added function only if nothing before this
function matches it (`Extended.of_accounts`).
-/

namespace AbiRecovery

open AbiRecovery.Tree

/-- A file with functions added after its last item. -/
def Tree.File.addFunctions (file : File) (functions : List FunctionItem) : File :=
  ⟨file.items ++ functions.map .function⟩

/-- Whether a builder's reference matches an instruction of a given name: it ends in the variant of
the enum, or in the type that the dispatch builds. -/
def InstructionSource.isMatch (source : InstructionSource) (name : String) (builder : Builder) :
    Bool :=
  match source with
  | .enum enumName _ => builder.produces enumName name
  | .legacy => builder.producesLeaf name
  | .unknown => false

/-- A function **matches** an instruction of a given name. -/
def Matches (source : InstructionSource) (name : String) (item : FunctionItem) : Prop :=
  ∃ builder, Builder.ofFunction? item = some builder ∧ source.isMatch name builder = true

/-- An instruction **extends** another one when the functions `later` are added to the functions
`earlier`: it differs in the accounts at most, and only if they were not known. Accounts that it
gets are those of an added function that matches it, and no function before that one does. -/
structure Extended (source : InstructionSource) (earlier later : List FunctionItem)
    (before after : Instruction) : Prop where
  code : after.code = before.code
  name : after.name = before.name
  inputs : after.inputs = before.inputs
  kept : ∀ roles, before.accounts = some roles → after.accounts = some roles
  gained : ∀ roles, before.accounts = none → after.accounts = some roles →
    ∃ front item back builder, later = front ++ item :: back ∧ Matches source before.name item ∧
      (∀ other ∈ earlier ++ front, ¬ Matches source before.name other) ∧
      Builder.ofFunction? item = some builder ∧ builder.accounts = some roles

/-! ### Accounts -/

namespace Assembly

theorem accounts?_append (earlier later : List Builder) (isBuilder : Builder → Bool) :
    accounts? (earlier ++ later) isBuilder =
      if earlier.any isBuilder then accounts? earlier isBuilder else accounts? later isBuilder := by
  unfold accounts?
  rw [List.find?_append]
  split_ifs with hany
  · have hsome : (earlier.find? isBuilder).isSome = true := by
      rw [List.find?_isSome]
      exact List.any_eq_true.mp hany
    obtain ⟨builder, hbuilder⟩ := Option.isSome_iff_exists.mp hsome
    rw [hbuilder, Option.some_or]
  · have hnone : earlier.find? isBuilder = none := by
      rw [List.find?_eq_none]
      intro builder hmem hbuilder
      exact hany (List.any_eq_true.mpr ⟨builder, hmem, hbuilder⟩)
    rw [hnone, Option.none_or]

theorem exists_first_of_accounts? {functions : List FunctionItem} {isBuilder : Builder → Bool}
    {roles : List AccountRole}
    (h : accounts? (functions.filterMap Builder.ofFunction?) isBuilder = some roles) :
    ∃ front item back builder, functions = front ++ item :: back ∧
      Builder.ofFunction? item = some builder ∧ isBuilder builder = true ∧
      builder.accounts = some roles ∧
      ∀ earlier ∈ front, ∀ other, Builder.ofFunction? earlier = some other →
        isBuilder other = false := by
  obtain ⟨builder, hfind, haccounts⟩ := Option.bind_eq_some_iff.mp h
  obtain ⟨front, item, back, hfunctions, hitem, hbuilder, hfront⟩ := exists_first_of_find? hfind
  exact ⟨front, item, back, builder, hfunctions, hitem, hbuilder, haccounts, hfront⟩

end Assembly

theorem Extended.of_accounts {source : InstructionSource} {earlier later : List FunctionItem}
    {before after : Instruction} {isBuilder : Builder → Bool} (hcode : after.code = before.code)
    (hname : after.name = before.name) (hinputs : after.inputs = before.inputs)
    (hbefore : before.accounts =
      Assembly.accounts? (earlier.filterMap Builder.ofFunction?) isBuilder)
    (hafter : after.accounts =
      Assembly.accounts? ((earlier ++ later).filterMap Builder.ofFunction?) isBuilder)
    (hmatch : isBuilder = source.isMatch before.name) :
    Extended source earlier later before after := by
  refine ⟨hcode, hname, hinputs, fun roles hknown => ?_, fun roles hunknown hgained => ?_⟩
  · rw [hbefore] at hknown
    obtain ⟨front, item, back, builder, hearlier, hitem, hbuilder, haccounts, hfront⟩ :=
      Assembly.exists_first_of_accounts? hknown
    have hall : earlier ++ later = front ++ item :: (back ++ later) := by simp [hearlier]
    rw [hafter, accounts?_first hall hitem hbuilder hfront, haccounts]
  · rw [hbefore] at hunknown
    rw [hafter, List.filterMap_append, Assembly.accounts?_append] at hgained
    split_ifs at hgained with hany
    · -- A function of the file that matches decides, also if it has no accounts.
      rw [hunknown] at hgained
      cases hgained
    · obtain ⟨front, item, back, builder, hlater, hitem, hbuilder, haccounts, hfront⟩ :=
        Assembly.exists_first_of_accounts? hgained
      subst hmatch
      refine ⟨front, item, back, builder, hlater, ⟨builder, hitem, hbuilder⟩, ?_, hitem, haccounts⟩
      rintro other hother ⟨found, hfound, hproduces⟩
      rcases List.mem_append.mp hother with hmem | hmem
      · refine hany (List.any_eq_true.mpr ⟨found, ?_, hproduces⟩)
        exact List.mem_filterMap.mpr ⟨other, hmem, hfound⟩
      · rw [hfront other hmem found hfound] at hproduces
        cases hproduces

/-! ### Instructions -/

theorem extended_variantInstruction (structs : Catalog) (earlier later : List FunctionItem)
    (enumName : String) (selection : EnumSelection) (variant : EnumVariant) :
    Extended (.enum enumName selection) earlier later
      (Assembly.variantInstruction structs (earlier.filterMap Builder.ofFunction?) enumName variant)
      (Assembly.variantInstruction structs ((earlier ++ later).filterMap Builder.ofFunction?)
        enumName variant) :=
  .of_accounts rfl rfl rfl rfl rfl rfl

theorem extended_entryInstruction? (structs : Catalog) (earlier later : List FunctionItem)
    (entry : DispatchEntry) :
    Option.Rel (Extended .legacy earlier later)
      (Assembly.entryInstruction? structs (earlier.filterMap Builder.ofFunction?) entry)
      (Assembly.entryInstruction? structs ((earlier ++ later).filterMap Builder.ofFunction?)
        entry) := by
  unfold Assembly.entryInstruction?
  cases entry.value? with
  | none => exact .none
  | some code =>
    refine .some ?_
    cases entry.payload with
    | none =>
      -- without a type there is nothing to match, so there are no accounts before and after
      refine ⟨rfl, rfl, rfl, fun roles hknown => ?_, fun roles _ hgained => ?_⟩
      · cases hknown
      · cases hgained
    | some payload => exact .of_accounts rfl rfl rfl rfl rfl rfl

/-- **The instructions** of a program are extended one by one, in order. -/
theorem extended_instructions (structs : Catalog) (enums : List EnumDef)
    (dispatch : List DispatchEntry) (earlier later : List FunctionItem) :
    List.Forall₂ (Extended (Assembly.source enums dispatch) earlier later)
      (Assembly.instructions structs enums dispatch (earlier.filterMap Builder.ofFunction?))
      (Assembly.instructions structs enums dispatch
        ((earlier ++ later).filterMap Builder.ofFunction?)) := by
  unfold Assembly.instructions Assembly.source
  cases selectEnum enums with
  | some selected =>
    obtain ⟨enum, selection⟩ := selected
    simp only [List.forall₂_map_left_iff, List.forall₂_map_right_iff, List.forall₂_same]
    intro variant _
    exact extended_variantInstruction structs earlier later enum.name selection variant
  | none =>
    by_cases hempty : dispatch = []
    · subst hempty
      exact .nil
    · simp only [if_neg hempty]
      refine List.rel_filterMap ?_ (List.forall₂_same.mpr fun entry _ => rfl)
      rintro entry _ rfl
      exact extended_entryInstruction? structs earlier later entry

/-! ### Files -/

theorem filterMap_addFunctions {α : Type} {select? : Item → Option α}
    (h : ∀ item, select? (.function item) = none) (file : File) (functions : List FunctionItem) :
    (file.addFunctions functions).items.filterMap select? = file.items.filterMap select? := by
  have hnone : (functions.map Item.function).filterMap select? = [] := by
    rw [List.filterMap_map, List.filterMap_eq_nil_iff]
    intro item _
    exact h item
  unfold File.addFunctions
  rw [List.filterMap_append, hnone, List.append_nil]

theorem functions_addFunctions (file : File) (functions : List FunctionItem) :
    (file.addFunctions functions).functions = file.functions ++ functions := by
  unfold File.functions File.addFunctions
  rw [List.filterMap_append, List.filterMap_map]
  exact congrArg _ List.filterMap_some

/-- **Functions can only add accounts.** Let functions be added after the last item of a file. Then
the source of the opcodes is the same, and there are the same instructions, with the same opcodes,
names and inputs and in the same order. Accounts that are known stay as they are. An instruction
gets accounts only from an added function that matches it, and only if no function before that one
matches it, in the file or among the added ones. -/
theorem added_functions_only_add_accounts (file : File) (functions : List FunctionItem) :
    let before := Analysis.ofFile file
    let after := Analysis.ofFile (file.addFunctions functions)
    after.source = before.source ∧
      List.Forall₂ (Extended before.source file.functions functions) before.instructions
        after.instructions := by
  intro before after
  have hstructs : (file.addFunctions functions).structs = file.structs :=
    filterMap_addFunctions (fun _ => rfl) file functions
  have henums : (file.addFunctions functions).enums = file.enums :=
    filterMap_addFunctions (fun _ => rfl) file functions
  have himpls : (file.addFunctions functions).impls = file.impls :=
    filterMap_addFunctions (fun _ => rfl) file functions
  have hsource : after.source = before.source := by
    simp only [after, before, Analysis.ofFile, henums, himpls]
  have hinstructions : after.instructions =
      Assembly.instructions before.structs before.enums before.dispatch
        ((file.functions ++ functions).filterMap Builder.ofFunction?) := by
    simp only [after, before, Analysis.ofFile, Analysis.structDefs, hstructs, henums, himpls,
      functions_addFunctions]
  refine ⟨hsource, ?_⟩
  rw [hinstructions]
  exact extended_instructions before.structs before.enums before.dispatch file.functions functions

/-- A function for `Pay` gives it accounts, and one for `Close` cannot, as there is one without. -/
example :
    let file : File := ⟨[.function closeFunction, .enum ⟨.everywhere, ⟨"Op"⟩,
      [.variant ⟨"Close"⟩ .unit, .variant ⟨"Pay"⟩ .unit]⟩]⟩
    let close : FunctionItem := ⟨.everywhere, ⟨⟨"close_with"⟩, []⟩,
      ⟨closeFunction.block.stmts ++ [.binding (.ident ⟨"accounts"⟩)
        (some (.macroCall ⟨plainPath ["vec"], AccountSpec.vector false paySpecs⟩))]⟩⟩
    let pay : FunctionItem := ⟨.everywhere, ⟨⟨"pay"⟩, []⟩, ⟨[payStmt]⟩⟩
    (Analysis.ofFile (file.addFunctions [close, pay])).instructions.map Instruction.accounts =
      [none, some (paySpecs.map AccountSpec.role)] := by
  decide +kernel

end AbiRecovery
