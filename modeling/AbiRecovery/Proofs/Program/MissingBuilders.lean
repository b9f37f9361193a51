import AbiRecovery.Proofs.Program.BuilderRecovery
import Mathlib.Data.List.Forall2
import Std.Data.String.ToNat

/-!
# The note about missing builders

An instruction is looked for in the references of the functions, under its `Target`: its variant, or
the type that its arm builds. The note at the end of an analysis counts the instructions without
accounts (`unmatched_mem_all_iff`). These are the instructions that no function builds, and also
those whose first function has an account list that was not recovered
(`countP_accounts_isNone`), so the note counts more than it says whenever there is one of the
latter.
-/

namespace AbiRecovery

open AbiRecovery.Tree

/-! ### What an instruction is looked for under -/

/-- What the reference of a function ends in that builds an instruction. -/
inductive Target where
  /-- A variant of the instruction enum. -/
  | variant (enumName name : String)
  /-- The type that an arm of a dispatch builds. -/
  | payload (name : String)
  /-- Nothing: the arm of the dispatch builds no type, so no function is looked for. -/
  | nameless
deriving DecidableEq

namespace Target

/-- Whether a builder's reference ends in a target. -/
def isBuiltBy : Target → Builder → Bool
  | variant enumName name, builder => builder.produces enumName name
  | payload name, builder => builder.producesLeaf name
  | nameless, _ => false

/-- An instruction **has** a target: it is named after it. -/
def IsOf : Target → Instruction → Prop
  | variant _ name, instruction => instruction.name = name
  | payload name, instruction => instruction.name = name
  | nameless, instruction =>
    instruction.name = "instruction_" ++ toString instruction.code.toNat

/-- Whether no function builds a target. -/
def isUnbuilt (builders : List Builder) (target : Target) : Bool :=
  !builders.any target.isBuiltBy

/-- Whether the first function that builds a target has no account list. -/
def isUnlisted (builders : List Builder) (target : Target) : Bool :=
  (builders.find? target.isBuiltBy).any fun builder => builder.accounts.isNone

end Target

/-- The target of an entry of a dispatch. -/
def DispatchEntry.target (entry : DispatchEntry) : Target :=
  entry.payload.elim .nameless .payload

/-- The targets of the instructions of a program, in order. -/
def Assembly.targets (enums : List EnumDef) (dispatch : List DispatchEntry) : List Target :=
  match selectEnum enums with
  | some (enum, _) => enum.variants.map fun variant => .variant enum.name variant.name
  | none => (dispatch.filter fun entry => entry.value?.isSome).map DispatchEntry.target

/-- The targets of the instructions of an analysis, in order. -/
def Analysis.targets (analysis : Analysis) : List Target :=
  Assembly.targets analysis.enums analysis.dispatch

/-- An instruction was **looked for** under a target: it has the accounts of the first function that
builds the target. -/
structure LookedFor (builders : List Builder) (instruction : Instruction) (target : Target) :
    Prop where
  isOf : target.IsOf instruction
  accounts : instruction.accounts = Assembly.accounts? builders target.isBuiltBy

theorem lookedFor_entryInstruction? (structs : Catalog) (builders : List Builder)
    {entry : DispatchEntry} {instruction : Instruction}
    (h : Assembly.entryInstruction? structs builders entry = some instruction) :
    LookedFor builders instruction entry.target := by
  obtain ⟨code, -, rfl⟩ := Option.map_eq_some_iff.mp h
  unfold DispatchEntry.target
  cases entry.payload with
  | some payload => exact ⟨rfl, rfl⟩
  | none =>
    refine ⟨rfl, ?_⟩
    have hnone : builders.find? Target.nameless.isBuiltBy = none :=
      List.find?_eq_none.mpr fun builder _ hbuilt => Bool.noConfusion hbuilt
    simp only [Option.elim_none, Option.bind_none, Assembly.accounts?, hnone]

theorem lookedFor_instructions (structs : Catalog) (enums : List EnumDef)
    (dispatch : List DispatchEntry) (builders : List Builder) :
    List.Forall₂ (LookedFor builders) (Assembly.instructions structs enums dispatch builders)
      (Assembly.targets enums dispatch) := by
  unfold Assembly.instructions Assembly.targets
  cases selectEnum enums with
  | some selected =>
    simp only [List.forall₂_map_left_iff, List.forall₂_map_right_iff, List.forall₂_same]
    intro variant _
    exact ⟨rfl, rfl⟩
  | none =>
    induction dispatch with
    | nil => exact .nil
    | cons entry dispatch ih =>
      cases hentry : Assembly.entryInstruction? structs builders entry with
      | none =>
        have hvalue : entry.value?.isSome = false := by
          rw [Assembly.entryInstruction?, Option.map_eq_none_iff] at hentry
          rw [hentry, Option.isSome_none]
        rw [List.filterMap_cons_none hentry, List.filter_cons_of_neg (by simp [hvalue])]
        exact ih
      | some instruction =>
        have hvalue : entry.value?.isSome = true := by
          obtain ⟨code, hcode, -⟩ := Option.map_eq_some_iff.mp hentry
          rw [hcode, Option.isSome_some]
        rw [List.filterMap_cons_some hentry, List.filter_cons_of_pos (by simpa using hvalue)]
        exact .cons (lookedFor_entryInstruction? structs builders hentry) ih

/-! ### Instructions without accounts -/

/-- There are **two reasons** for an instruction to have no accounts. -/
theorem isNone_accounts?_eq (builders : List Builder) (target : Target) :
    (Assembly.accounts? builders target.isBuiltBy).isNone =
      (target.isUnbuilt builders || target.isUnlisted builders) := by
  unfold Assembly.accounts? Target.isUnbuilt Target.isUnlisted
  cases hfind : builders.find? target.isBuiltBy with
  | none =>
    have hany : builders.any target.isBuiltBy = false := by
      rw [List.any_eq_false]
      exact List.find?_eq_none.mp hfind
    simp [hany]
  | some builder =>
    have hany : builders.any target.isBuiltBy = true :=
      List.any_eq_true.mpr ⟨builder, List.mem_of_find?_eq_some hfind, List.find?_some hfind⟩
    simp [hany]

theorem isUnlisted_of_isUnbuilt {builders : List Builder} {target : Target}
    (h : target.isUnbuilt builders = true) : target.isUnlisted builders = false := by
  have hfind : builders.find? target.isBuiltBy = none := by
    rw [List.find?_eq_none]
    exact List.any_eq_false.mp (by simpa [Target.isUnbuilt] using h)
  rw [Target.isUnlisted, hfind, Option.any_none]

theorem countP_accounts_isNone {builders : List Builder} {instructions : List Instruction}
    {targets : List Target} (h : List.Forall₂ (LookedFor builders) instructions targets) :
    instructions.countP (fun instruction => instruction.accounts.isNone) =
      targets.countP (Target.isUnbuilt builders) + targets.countP (Target.isUnlisted builders) := by
  induction h with
  | nil => rfl
  | @cons instruction target instructions targets hfirst _ ih =>
    have hnone := isNone_accounts?_eq builders target
    rw [← hfirst.accounts] at hnone
    rw [List.countP_cons, List.countP_cons, List.countP_cons, ih, hnone]
    -- the two reasons exclude each other, so no instruction is counted twice
    cases hunbuilt : target.isUnbuilt builders with
    | true =>
      rw [isUnlisted_of_isUnbuilt hunbuilt]
      simp only [Bool.true_or, Bool.false_eq_true, if_true, if_false]
      omega
    | false =>
      simp only [Bool.false_or, Bool.false_eq_true, if_false]
      omega

/-! ### The note -/

namespace Diagnostic

theorem head?_append {front rest : String} {c : Char} (h : front.toList.head? = some c) :
    (front ++ rest).toList.head? = some c := by
  rw [String.toList_append, List.head?_append, h, Option.some_or]

theorem head?_message_unmatched (count : Nat) :
    ∃ c : Char, (unmatched count).message.toList.head? = some c ∧ c.isDigit = true := by
  obtain ⟨first, rest, hdigits⟩ :=
    List.exists_cons_of_ne_nil (Nat.toDigits_ne_nil (n := count) (b := 10))
  have hmem : first ∈ Nat.toDigits 10 count := by simp [hdigits]
  refine ⟨first, head?_append ?_, Nat.isDigit_of_mem_toDigits (by decide) (by decide) hmem⟩
  rw [Nat.toString_eq_repr, Nat.toList_repr, hdigits, List.head?_cons]

/-- **The wording tells the count**, and no other note has it. -/
theorem message_eq_unmatched_iff {diagnostic : Diagnostic} {count : Nat} :
    diagnostic.message = (unmatched count).message ↔ diagnostic = unmatched count := by
  refine ⟨fun h => ?_, congrArg message⟩
  obtain ⟨first, hfirst, hdigit⟩ := head?_message_unmatched count
  have hother : ∀ c, diagnostic.message.toList.head? = some c → c.isDigit = true := by
    intro c hc
    rw [h, hfirst, Option.some.injEq] at hc
    rwa [← hc]
  cases diagnostic with
  | structRepeated name =>
    exact absurd (hother 's' (head?_append (head?_append (by decide)))) (by decide)
  | enumAssumed name => exact absurd (hother 'n' (head?_append (by decide))) (by decide)
  | noSource => exact absurd (hother 'n' (by decide)) (by decide)
  | unmatched other =>
    have htext : toString other = toString count := (String.append_left_inj _).mp h
    rw [Nat.repr_injective htext]

theorem unmatched_mem_all_iff {structs : Catalog} {source : InstructionSource}
    {instructions : List Instruction} {count : Nat} :
    unmatched count ∈ all structs source instructions ↔
      0 < count ∧ count = instructions.countP fun instruction => instruction.accounts.isNone := by
  have hsource : unmatched count ∉ ofSource source := by
    unfold ofSource
    split <;> simp
  unfold all
  simp only [List.mem_append, List.mem_map, reduceCtorEq, and_false, exists_false, hsource,
    false_or]
  split_ifs with hzero
  · rw [hzero]
    simpa using Nat.ne_of_gt
  · rw [List.mem_singleton, unmatched.injEq]
    omega

end Diagnostic

/-- **The note about missing builders counts instructions without accounts.** Each instruction has a
target, and the accounts of the first function that builds it. The note is given for a number
exactly if that is positive and the number of targets that no function builds and of those whose
first function has no account list, taken together. So it gives the number of instructions without a
function exactly if each function that is the first for an instruction has an account list. -/
theorem missing_builders_note (file : File) :
    let analysis := Analysis.ofFile file
    let notes := analysis.diagnostics.map Diagnostic.message
    let note (count : Nat) := toString count ++ " instructions have no matching builder function"
    let unbuilt := analysis.targets.countP (Target.isUnbuilt analysis.builders)
    let unlisted := analysis.targets.countP (Target.isUnlisted analysis.builders)
    List.Forall₂ (LookedFor analysis.builders) analysis.instructions analysis.targets ∧
      (∀ count, note count ∈ notes ↔ 0 < count ∧ count = unbuilt + unlisted) ∧
      ((∀ count, note count ∈ notes ↔ 0 < count ∧ count = unbuilt) ↔ unlisted = 0) := by
  intro analysis notes note unbuilt unlisted
  have hlooked : List.Forall₂ (LookedFor analysis.builders) analysis.instructions
      analysis.targets := lookedFor_instructions _ _ _ _
  have hnote : ∀ count, note count ∈ notes ↔ 0 < count ∧ count = unbuilt + unlisted := by
    intro count
    have hmem : note count ∈ notes ↔ Diagnostic.unmatched count ∈ analysis.diagnostics := by
      rw [List.mem_map]
      constructor
      · rintro ⟨diagnostic, hdiagnostic, hmessage⟩
        exact Diagnostic.message_eq_unmatched_iff.mp hmessage ▸ hdiagnostic
      · intro hdiagnostic
        exact ⟨_, hdiagnostic, rfl⟩
    rw [hmem, ← countP_accounts_isNone hlooked]
    exact Diagnostic.unmatched_mem_all_iff
  refine ⟨hlooked, hnote, fun h => ?_, fun hzero => ?_⟩
  · have hboth := (h (unbuilt + unlisted)).symm.trans (hnote (unbuilt + unlisted))
    omega
  · rw [hzero, Nat.add_zero] at hnote
    exact hnote

/-- A function builds `Op::Close`, the only instruction, but its accounts are not known. So it is
reported as missing. -/
theorem known_builder_reported_missing :
    let analysis := Analysis.ofFile
      ⟨[.function closeFunction, .enum ⟨.everywhere, ⟨"Op"⟩, [.variant ⟨"Close"⟩ .unit]⟩]⟩
    analysis.targets = [.variant "Op" "Close"] ∧
      (∃ builder ∈ analysis.builders, builder.produces "Op" "Close" = true) ∧
      analysis.targets.countP (Target.isUnbuilt analysis.builders) = 0 ∧
      "1 instructions have no matching builder function" ∈
        analysis.diagnostics.map Diagnostic.message := by
  decide +kernel

end AbiRecovery
