import AbiRecovery.Proofs.Program.BuilderRecovery
import AbiRecovery.Proofs.Program.Numerals
import AbiRecovery.Proofs.Program.StructCatalog

/-!
# The instructions of a dispatch

How a hand-written dispatch may look: a method `unpack` with a statement `Ok(match ..)`
(`Dispatches`), whose arms have a literal that renders the opcode and a body that names the type
that is built, or have no literal at all (`Opcodes`). Each shape has a lemma that says what is read
from it: the arms of a statement (`arms?_eq_some_iff`), the literal of a pattern
(`literal?_eq_some_iff`), the type that a body builds (`ArmBuilds.payload?_eq`).

From these follows that each opcode of a dispatch is recovered as one instruction, in the order of
the arms, with the inputs of the last definition of its type and the accounts of the first function
that refers to it.
-/

namespace AbiRecovery

open AbiRecovery.Tree

/-! ### Dispatches -/

theorem wrapped_peel (expr : Expr) : Wrapped expr.peel expr := by
  fun_induction Expr.peel expr with
  | case1 expr ih => exact .paren ih
  | case2 expr ih => exact .reference ih
  | case3 expr ih => exact .unary ih
  | case4 expr => exact .bare

/-- A function is `Ok`, whatever its path is qualified with. -/
def NamesOk (func : Expr) : Prop :=
  ∃ path outer, Wrapped (.path path) func ∧ path.idents = outer ++ ["Ok"]

/-- A statement `Ok(match ..)`: an expression or the initial value of a variable, maybe behind
`return`. -/
inductive OkMatch (arms : List Arm) (stmt : Stmt) : Prop
  | intro {expr func scrutinee arg : Expr} {args : List Expr} : stmt.expr? = some expr →
    (expr = .call func (arg :: args) ∨ expr = .ret (some (.call func (arg :: args)))) →
      NamesOk func → Wrapped (.matchOn scrutinee arms) arg → OkMatch arms stmt

/-- A block of methods **dispatches** over arms: they are those of the first statement
`Ok(match ..)` in its first method `unpack`. -/
def Dispatches (item : ImplItem) (arms : List Arm) : Prop :=
  ∃ methods signature before stmt after others,
    item.entries = methods ++ .method signature ⟨before ++ stmt :: after⟩ :: others ∧
      signature.ident.text = "unpack" ∧
      (∀ earlier block, .method earlier block ∈ methods → earlier.ident.text ≠ "unpack") ∧
      OkMatch arms stmt ∧ ∀ earlier ∈ before, ∀ found, ¬ OkMatch found earlier

theorem isOk_iff {func : Expr} : func.isOk = true ↔ NamesOk func := by
  constructor
  · intro h
    unfold Expr.isOk Expr.path? at h
    have hw := wrapped_peel func
    split at h
    · next path hpath =>
      split at hpath
      · next found heq =>
        cases hpath
        rw [heq] at hw
        obtain ⟨outer, houter⟩ := List.getLast?_eq_some_iff.mp (of_decide_eq_true h)
        exact ⟨_, outer, hw, houter⟩
      · cases hpath
    · cases h
  · rintro ⟨path, outer, hw, houter⟩
    rw [isOk_of_leaf hw houter, decide_eq_true rfl]

theorem returned_eq_call_iff {expr func : Expr} {args : List Expr} :
    expr.returned = .call func args ↔
      expr = .call func args ∨ expr = .ret (some (.call func args)) := by
  constructor
  · intro h
    unfold Expr.returned at h
    split at h
    · exact Or.inr (by rw [h])
    · exact Or.inl h
  · rintro (rfl | rfl) <;> rfl

theorem arms?_eq_some_iff {stmt : Stmt} {arms : List Arm} :
    Dispatch.arms? stmt = some arms ↔ OkMatch arms stmt := by
  unfold Dispatch.arms?
  constructor
  · intro h
    split at h
    · next func args hreturned =>
      obtain ⟨expr, hexpr, hcall⟩ := Option.map_eq_some_iff.mp hreturned
      split_ifs at h with hok
      split at h
      · next scrutinee found hhead =>
        cases h
        obtain ⟨arg, harg, hpeel⟩ := Option.map_eq_some_iff.mp hhead
        obtain ⟨others, rfl⟩ := List.head?_eq_some_iff.mp harg
        have hw := wrapped_peel arg
        rw [hpeel] at hw
        exact .intro hexpr (returned_eq_call_iff.mp hcall) (isOk_iff.mp hok) hw
      · cases h
    · cases h
  · rintro ⟨hexpr, hcall, hok, hw⟩
    rw [hexpr, Option.map_some, returned_eq_call_iff.mpr hcall]
    simp only [isOk_iff.mpr hok, if_true, List.head?_cons, Option.map_some, hw.peel_eq, Expr.peel]

theorem arms?_eq_none_iff {stmt : Stmt} :
    Dispatch.arms? stmt = none ↔ ∀ arms, ¬ OkMatch arms stmt := by
  rw [Option.eq_none_iff_forall_ne_some]
  exact forall_congr' fun arms => not_congr arms?_eq_some_iff

theorem body?_eq_some_iff {entry : ImplEntry} {block : Block} :
    Dispatch.body? entry = some block ↔
      ∃ signature, entry = .method signature block ∧ signature.ident.text = "unpack" := by
  cases entry with
  | method signature body =>
    have hname : signature.ident.name? = some "unpack" ↔ signature.ident.text = "unpack" := by
      unfold Ident.name?
      split_ifs <;> simp_all
    simp only [Dispatch.body?, Option.ite_none_right_eq_some, hname, Option.some.injEq]
    constructor
    · rintro ⟨htext, rfl⟩
      exact ⟨signature, rfl, htext⟩
    · rintro ⟨_, heq, htext⟩
      cases heq
      exact ⟨htext, rfl⟩
  | other => simp [Dispatch.body?]

theorem forall_body?_eq_none_iff {entries : List ImplEntry} :
    (∀ entry ∈ entries, Dispatch.body? entry = none) ↔
      ∀ signature block, .method signature block ∈ entries → signature.ident.text ≠ "unpack" := by
  refine ⟨fun h signature block hmem hname => ?_, fun h entry hmem => ?_⟩
  · have hnone := h _ hmem
    rw [body?_eq_some_iff.mpr ⟨signature, rfl, hname⟩] at hnone
    cases hnone
  · rw [Option.eq_none_iff_forall_ne_some]
    intro block hbody
    obtain ⟨signature, rfl, hname⟩ := body?_eq_some_iff.mp hbody
    exact h signature block hmem hname

theorem findSome?_body?_eq_some_iff {entries : List ImplEntry} {block : Block} :
    entries.findSome? Dispatch.body? = some block ↔
      ∃ methods signature others, entries = methods ++ .method signature block :: others ∧
        signature.ident.text = "unpack" ∧
        ∀ earlier other, .method earlier other ∈ methods → earlier.ident.text ≠ "unpack" := by
  rw [List.findSome?_eq_some_iff]
  constructor
  · rintro ⟨methods, entry, others, hentries, hentry, hmethods⟩
    obtain ⟨signature, rfl, hname⟩ := body?_eq_some_iff.mp hentry
    exact ⟨methods, signature, others, hentries, hname, forall_body?_eq_none_iff.mp hmethods⟩
  · rintro ⟨methods, signature, others, hentries, hname, hmethods⟩
    exact ⟨methods, _, others, hentries, body?_eq_some_iff.mpr ⟨signature, rfl, hname⟩,
      forall_body?_eq_none_iff.mpr hmethods⟩

/-- **The arms of a block of methods** are found exactly if it dispatches over them. -/
theorem dispatches_iff {item : ImplItem} {arms : List Arm} :
    Dispatches item arms ↔
      ((item.entries.findSome? Dispatch.body?).bind fun block =>
        block.stmts.findSome? Dispatch.arms?) = some arms := by
  rw [Option.bind_eq_some_iff]
  constructor
  · rintro ⟨methods, signature, before, stmt, after, others, hentries, hname, hmethods, hstmt,
      hbefore⟩
    refine ⟨⟨before ++ stmt :: after⟩, findSome?_body?_eq_some_iff.mpr
      ⟨methods, signature, others, hentries, hname, hmethods⟩, List.findSome?_eq_some_iff.mpr ?_⟩
    exact ⟨before, stmt, after, rfl, arms?_eq_some_iff.mpr hstmt,
      fun earlier hearlier => arms?_eq_none_iff.mpr (hbefore earlier hearlier)⟩
  · rintro ⟨⟨stmts⟩, hbody, harms⟩
    obtain ⟨methods, signature, others, hentries, hname, hmethods⟩ :=
      findSome?_body?_eq_some_iff.mp hbody
    obtain ⟨before, stmt, after, rfl, hstmt, hbefore⟩ := List.findSome?_eq_some_iff.mp harms
    exact ⟨methods, signature, before, stmt, after, others, hentries, hname, hmethods,
      arms?_eq_some_iff.mp hstmt,
      fun earlier hearlier => arms?_eq_none_iff.mp (hbefore earlier hearlier)⟩

theorem Dispatches.ofImpl?_eq {item : ImplItem} {arms : List Arm} (h : Dispatches item arms) :
    Dispatch.ofImpl? item = some (arms.filterMap DispatchEntry.ofArm?) := by
  obtain ⟨block, hbody, harms⟩ := Option.bind_eq_some_iff.mp (dispatches_iff.mp h)
  rw [Dispatch.ofImpl?, hbody, Option.bind_some, harms, Option.map_some]

/-! ### Arms -/

/-- A pattern is an integer literal with the given text. -/
def LiteralPat (text : String) (pat : Pat) : Prop :=
  text ≠ "" ∧ ∃ expr, pat = .lit expr ∧ Wrapped (.lit (.int text)) expr

/-- A path ends in the name of a type, which starts with an upper-case letter. -/
def NamesType (type : String) (path : Path) : Prop :=
  isTypeLike type = true ∧ ∃ outer, path.idents = outer ++ [type]

/-- A value of a type: a struct literal or a path alone. -/
inductive PlainValue (type : String) : Expr → Prop
  | struct {path : Path} (fields : List FieldValue) : NamesType type path →
    PlainValue type (.struct path fields)
  | path {path : Path} : NamesType type path → PlainValue type (.path path)

/-- An expression **builds** a type: it is a value of the type, or a call with such a value as its
first argument. -/
inductive Builds (type : String) : Expr → Prop
  | value {value expr : Expr} : PlainValue type value → Wrapped value expr → Builds type expr
  | argument {value func arg expr : Expr} {args : List Expr} : PlainValue type value →
    Wrapped value arg → Wrapped (.call func (arg :: args)) expr → Builds type expr

/-- The body of an arm builds a type, directly or in the last statement of a block. -/
inductive ArmBuilds (type : String) : Expr → Prop
  | direct {body : Expr} : Builds type body → ArmBuilds type body
  | block {before : List Stmt} {last : Stmt} {expr : Expr} : last.expr? = some expr →
    Builds type expr → ArmBuilds type (.block ⟨before ++ [last]⟩)

theorem literal?_eq_some_iff {pat : Pat} {text : String} :
    DispatchEntry.literal? pat = some text ↔ LiteralPat text pat := by
  constructor
  · intro h
    cases pat with
    | lit expr =>
      have hw := wrapped_peel expr
      rw [DispatchEntry.literal?] at h
      split at h
      · next lit hpeel =>
        rw [hpeel] at hw
        cases lit with
        | int found =>
          rw [Lit.intText?, Option.ite_none_left_eq_some, Option.some.injEq] at h
          obtain ⟨hne, rfl⟩ := h
          exact ⟨hne, expr, rfl, hw⟩
        | str | bool | other => cases h
      · cases h
    | ident | typed | wild | other => cases h
  · rintro ⟨hne, expr, rfl, hw⟩
    rw [DispatchEntry.literal?, hw.peel_eq]
    exact if_neg hne

theorem literal?_eq_none_iff {pat : Pat} :
    DispatchEntry.literal? pat = none ↔ ∀ text, ¬ LiteralPat text pat := by
  rw [Option.eq_none_iff_forall_ne_some]
  exact forall_congr' fun text => not_congr literal?_eq_some_iff

theorem NamesType.typeName?_eq {type : String} {path : Path} (h : NamesType type path) :
    path.typeName? = some type := by
  obtain ⟨htype, outer, houter⟩ := h
  rw [Path.typeName?, houter, List.filter_append, List.filter_cons_of_pos htype, List.filter_nil,
    List.getLast?_append, List.getLast?_singleton, Option.some_or]

theorem Builds.payload?_eq {type : String} {body expr : Expr} (h : Builds type expr)
    (hbody : DispatchEntry.armValue? body = some expr) :
    DispatchEntry.payload? body = some type := by
  unfold DispatchEntry.payload?
  rw [hbody, Option.map_some]
  cases h with
  | value hvalue hw =>
    rw [hw.peel_eq]
    cases hvalue with
    | struct _ hpath | path hpath => exact hpath.typeName?_eq
  | argument hvalue harg hw =>
    rw [hw.peel_eq]
    simp only [Expr.peel, List.head?_cons, Option.map_some, Option.bind_some]
    rw [harg.peel_eq]
    cases hvalue with
    | struct _ hpath | path hpath => exact hpath.typeName?_eq

theorem ArmBuilds.payload?_eq {type : String} {body : Expr} (h : ArmBuilds type body) :
    DispatchEntry.payload? body = some type := by
  cases h with
  | direct hbuilds =>
    refine hbuilds.payload?_eq ?_
    -- A value or a call is no block, with whatever is around it.
    cases hbuilds with
    | value hvalue hw => cases hw <;> cases hvalue <;> rfl
    | argument hvalue harg hw => cases hw <;> rfl
  | block hlast hbuilds =>
    refine hbuilds.payload?_eq ?_
    simp only [DispatchEntry.armValue?, List.getLast?_append, List.getLast?_singleton,
      Option.some_or, Option.bind_some, hlast]

theorem ArmBuilds.type_ne {type : String} {body : Expr} (h : ArmBuilds type body) : type ≠ "" := by
  have hvalue : ∃ value, PlainValue type value := by
    cases h with
    | direct hbuilds | block _ hbuilds =>
      cases hbuilds with
      | value hvalue | argument hvalue => exact ⟨_, hvalue⟩
  obtain ⟨_, hvalue⟩ := hvalue
  rintro rfl
  cases hvalue with
  | struct _ hpath | path hpath => exact absurd hpath.1 (by decide)

/-! ### Opcodes -/

/-- An opcode of a dispatch: its literal, the number that it renders, and the type that is built. -/
structure Opcode where
  literal : String
  code : UInt64
  type : String

/-- What a dispatch says about an opcode. -/
def Opcode.entry (opcode : Opcode) : DispatchEntry :=
  ⟨opcode.literal, some opcode.type⟩

/-- The **opcodes** of arms, in order: an arm without an integer literal has none, and an arm with
one has a literal that renders its code and a body that builds its type. -/
inductive Opcodes : List Arm → List Opcode → Prop
  | nil : Opcodes [] []
  | skip {arm : Arm} {arms : List Arm} {opcodes : List Opcode} :
    (∀ text, ¬ LiteralPat text arm.pat) → Opcodes arms opcodes → Opcodes (arm :: arms) opcodes
  | cons {arm : Arm} {arms : List Arm} {opcode : Opcode} {opcodes : List Opcode} :
    LiteralPat opcode.literal arm.pat → Literal.Renders opcode.literal opcode.code →
      ArmBuilds opcode.type arm.body → Opcodes arms opcodes →
        Opcodes (arm :: arms) (opcode :: opcodes)

/-- **The entries of a dispatch** are its opcodes, with their literals as they are written. -/
theorem Opcodes.filterMap_ofArm? {arms : List Arm} {opcodes : List Opcode}
    (h : Opcodes arms opcodes) :
    arms.filterMap DispatchEntry.ofArm? = opcodes.map Opcode.entry := by
  induction h with
  | nil => rfl
  | @skip arm arms opcodes hpat _ ih =>
    have hnone : DispatchEntry.ofArm? arm = none := by
      rw [DispatchEntry.ofArm?, literal?_eq_none_iff.mpr hpat, Option.map_none]
    rw [List.filterMap_cons_none hnone, ih]
  | @cons arm arms opcode opcodes hpat _ hbody _ ih =>
    have hentry : DispatchEntry.ofArm? arm = some opcode.entry := by
      rw [DispatchEntry.ofArm?, literal?_eq_some_iff.mpr hpat, Option.map_some, hbody.payload?_eq]
      rfl
    rw [List.filterMap_cons_some hentry, ih, List.map_cons]

/-! ### Accounts -/

/-- A function refers to a name: it is the last segment of the reference of its data. -/
def Refers (name : String) (item : FunctionItem) : Prop :=
  ∃ builder reference, Builder.ofFunction? item = some builder ∧
    builder.reference = some reference ∧ LastSegment name reference

/-- The **accounts of a type** among the functions of a file: those of the first function that
refers to it, and none if no function does. -/
inductive AccountsOf (name : String) (functions : List FunctionItem) :
    Option (List AccountRole) → Prop
  | first {before after : List FunctionItem} {item : FunctionItem} {builder : Builder} :
    functions = before ++ item :: after → Builder.ofFunction? item = some builder →
      Refers name item → (∀ earlier ∈ before, ¬ Refers name earlier) →
        AccountsOf name functions builder.accounts
  | unbuilt : (∀ item ∈ functions, ¬ Refers name item) → AccountsOf name functions none

theorem refers_iff {name : String} {item : FunctionItem} :
    Refers name item ↔
      (Builder.ofFunction? item).any (fun builder => builder.producesLeaf name) = true := by
  rw [Option.any_eq_true]
  simp only [Builder.producesLeaf_iff]
  constructor
  · rintro ⟨builder, reference, hbuilder, hreference, hlast⟩
    exact ⟨builder, hbuilder, reference, hreference, hlast⟩
  · rintro ⟨builder, hbuilder, reference, hreference, hlast⟩
    exact ⟨builder, reference, hbuilder, hreference, hlast⟩

/-- **The accounts of a type** are those of the first function that refers to it. -/
theorem accountsOf_accounts? (name : String) (functions : List FunctionItem) :
    AccountsOf name functions (Assembly.accounts? (functions.filterMap Builder.ofFunction?)
      fun builder => builder.producesLeaf name) := by
  unfold Assembly.accounts?
  cases hfind : (functions.filterMap Builder.ofFunction?).find?
      fun builder => builder.producesLeaf name with
  | none =>
    refine .unbuilt fun item hitem => ?_
    rw [refers_iff, Option.any_eq_true]
    rintro ⟨builder, hbuilder, hproduces⟩
    have hmem := List.mem_filterMap.mpr ⟨item, hitem, hbuilder⟩
    exact List.find?_eq_none.mp hfind builder hmem hproduces
  | some builder =>
    obtain ⟨before, item, after, hfunctions, hitem, hproduces, hbefore⟩ :=
      exists_first_of_find? hfind
    refine .first hfunctions hitem ?_ fun earlier hearlier => ?_
    · rw [refers_iff, hitem]
      exact hproduces
    · rw [refers_iff, Option.any_eq_true]
      rintro ⟨other, hother, hother'⟩
      rw [hbefore earlier hearlier other hother] at hother'
      cases hother'

/-! ### Files -/

/-- An instruction is **recovered** for an opcode. -/
structure Recovered (file : File) (opcode : Opcode) (instruction : Instruction) : Prop where
  code : instruction.code = opcode.code
  name : instruction.name = opcode.type
  inputs : InputsOf opcode.type file.structs instruction.inputs
  accounts : AccountsOf opcode.type file.functions instruction.accounts

theorem Opcodes.recovered {arms : List Arm} {opcodes : List Opcode} (h : Opcodes arms opcodes)
    (file : File) :
    List.Forall₂ (Recovered file) opcodes ((opcodes.map Opcode.entry).filterMap
      (Assembly.entryInstruction? (Catalog.ofStructs (Analysis.structDefs file))
        (file.functions.filterMap Builder.ofFunction?))) := by
  induction h with
  | nil => exact .nil
  | skip _ _ ih => exact ih
  | @cons arm arms opcode opcodes _ hrenders hbody _ ih =>
    have hvalue : opcode.entry.value? = some opcode.code := Literal.value?_eq_some_iff.mpr hrenders
    rw [List.map_cons, List.filterMap_cons_some (by rw [Assembly.entryInstruction?, hvalue]; rfl)]
    refine .cons ⟨rfl, rfl, ?_, ?_⟩ ih
    · exact inputsOf_structInputs file hbody.type_ne
    · exact accountsOf_accounts? opcode.type file.functions

theorem ofImpls_singleton {item : ImplItem} {entries : List DispatchEntry}
    (h : Dispatch.ofImpl? item = some entries) : Dispatch.ofImpls [item] = entries := by
  by_cases hempty : entries = [] <;> simp [Dispatch.ofImpls, h, Option.filter, hempty]

/-- **The instructions of a dispatch** are recovered. In a file without a named enum, let the only
block of methods dispatch over arms with the given opcodes, whatever other arms there are. Then
there is one instruction for each opcode, in the order of the arms: it has the number that the
literal renders, the name of the type that is built, the inputs of the last definition of this type,
and the accounts of the first function that refers to it. The literals are kept as they are
written. -/
theorem instructions_of_dispatch {file : File} {item : ImplItem} {arms : List Arm}
    {opcodes : List Opcode} (henums : ∀ enum ∈ file.enums, enum.ident.text = "")
    (himpls : file.impls = [item]) (hdispatch : Dispatches item arms)
    (hopcodes : Opcodes arms opcodes) :
    (Analysis.ofFile file).dispatch = opcodes.map Opcode.entry ∧
      List.Forall₂ (Recovered file) opcodes (Analysis.ofFile file).instructions := by
  have hentries : Dispatch.ofImpls file.impls = opcodes.map Opcode.entry := by
    rw [himpls, ofImpls_singleton hdispatch.ofImpl?_eq, hopcodes.filterMap_ofArm?]
  have hnoEnum : file.enums.filterMap EnumDef.ofItem? = [] := by
    rw [List.filterMap_eq_nil_iff]
    intro enum henum
    rw [EnumDef.ofItem?, Ident.name?, if_pos (henums enum henum)]
    rfl
  have hinstructions : (Analysis.ofFile file).instructions =
      (opcodes.map Opcode.entry).filterMap
        (Assembly.entryInstruction? (Catalog.ofStructs (Analysis.structDefs file))
          (file.functions.filterMap Builder.ofFunction?)) := by
    rw [← hentries]
    simp only [Analysis.ofFile, hnoEnum]
    rfl
  rw [hinstructions]
  exact ⟨hentries, hopcodes.recovered file⟩

/-- The arms `0x0_Au8 => Pay { .. }`, `_ => ..` and
`(0b1_1) => { ..; Self::Leave(&state::Close) }`. -/
def tagArms : List Arm :=
  [⟨.lit (.lit (.int "0x0_Au8")), .struct (plainPath ["Pay"]) []⟩, ⟨.wild, .other⟩,
    ⟨.lit (.paren (.lit (.int "0b1_1"))), .block ⟨[.other] ++
      [.expr (.call (.path (plainPath ["Self", "Leave"]))
        [.reference (.path (plainPath ["state", "Close"]))])]⟩⟩]

/-- The opcodes of the arms. -/
def tagOpcodes : List Opcode :=
  [⟨"0x0_Au8", 10, "Pay"⟩, ⟨"0b1_1", 3, "Close"⟩]

/-- A block of methods whose second method dispatches over the arms, in its second statement. -/
def tagImpl : ImplItem :=
  ⟨.other, [.method ⟨⟨"pack"⟩, []⟩ ⟨[]⟩, .method ⟨⟨"unpack"⟩, []⟩
    ⟨[.binding .wild (some (.call (.path (plainPath ["Ok"])) []))] ++
      .semi (.ret (some (.call (.path (plainPath ["Ok"]))
        [.matchOn (.path (plainPath ["tag"])) tagArms]))) :: []⟩]⟩

/-- A file with the dispatch, two definitions of `Pay` and a function that builds it. -/
def tagFile : File :=
  ⟨[.struct ⟨.everywhere, ⟨"Pay"⟩, .unit⟩, .impl tagImpl, .enum ⟨.everywhere, ⟨""⟩, []⟩,
    .struct ⟨.everywhere, ⟨"Pay"⟩, .named
      [⟨.everywhere, some ⟨"amount"⟩, .path (plainPath ["u64"])⟩]⟩,
    .function ⟨.everywhere, ⟨⟨"pay"⟩, []⟩, ⟨[payStmt]⟩⟩]⟩

theorem dispatches_tagImpl : Dispatches tagImpl tagArms := by
  have hok : NamesOk (.path (plainPath ["Ok"])) := ⟨_, [], .bare, rfl⟩
  refine ⟨[.method ⟨⟨"pack"⟩, []⟩ ⟨[]⟩], _, _, _, _, [], rfl, rfl, ?_,
    .intro rfl (Or.inr rfl) hok .bare, ?_⟩
  · intro earlier block hmem
    simp at hmem
    simp [hmem]
  · intro earlier hearlier found hmatch
    rw [List.mem_singleton.mp hearlier] at hmatch
    cases arms?_eq_some_iff.mpr hmatch

theorem opcodes_tagArms : Opcodes tagArms tagOpcodes := by
  have hpay : NamesType "Pay" (plainPath ["Pay"]) := ⟨by decide +kernel, [], rfl⟩
  have hclose : NamesType "Close" (plainPath ["state", "Close"]) :=
    ⟨by decide +kernel, ["state"], rfl⟩
  have hhex : Literal.Renders "0x0_Au8" 10 := Literal.value?_eq_some_iff.mp (by decide +kernel)
  have hbinary : Literal.Renders "0b1_1" 3 := Literal.value?_eq_some_iff.mp (by decide +kernel)
  refine .cons ⟨by decide, _, rfl, .bare⟩ hhex (.direct (.value (.struct [] hpay) .bare)) ?_
  refine .skip (by rintro text ⟨-, expr, hpat, -⟩; cases hpat) ?_
  exact .cons ⟨by decide, _, rfl, .paren .bare⟩ hbinary
    (.block rfl (.argument (.path hclose) (.reference .bare) .bare)) .nil

theorem instructions_of_tagFile :
    (∀ enum ∈ tagFile.enums, enum.ident.text = "") ∧ tagFile.impls = [tagImpl] ∧
      Dispatches tagImpl tagArms ∧ Opcodes tagArms tagOpcodes ∧
      (Analysis.ofFile tagFile).dispatch = [⟨"0x0_Au8", some "Pay"⟩, ⟨"0b1_1", some "Close"⟩] ∧
      List.Forall₂ (Recovered tagFile) tagOpcodes (Analysis.ofFile tagFile).instructions := by
  have henums : ∀ enum ∈ tagFile.enums, enum.ident.text = "" := by
    intro enum henum
    rw [List.mem_singleton.mp (show enum ∈ [⟨.everywhere, ⟨""⟩, []⟩] from henum)]
  exact ⟨henums, rfl, dispatches_tagImpl, opcodes_tagArms,
    instructions_of_dispatch henums rfl dispatches_tagImpl opcodes_tagArms⟩

end AbiRecovery
