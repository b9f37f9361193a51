import AbiRecovery.Proofs.Program.DispatchRecovery
import AbiRecovery.Proofs.Program.LocalAliases

/-!
# Three ways to put an instruction together

The data and the accounts of an instruction are local variables, or fields of a literal, or
arguments of a call (`ConstructionForm`). A literal and a call give the same whatever the data and
the accounts are, because both are only what is read of a construction
(`FinalConstruction.recovered`).

With local variables two things are different. The accounts are those of a vector in the variable
`accounts` itself (`recovered_locals`), while the accounts of a literal or a call may also be the
name of a variable that holds the vector (`Scope.roles?_eq_some_iff`). And the variables are visible
when the reference of the data is looked up, which matters if the data refers to the name
`accounts`.
-/

namespace AbiRecovery

open AbiRecovery.Tree

/-! ### Vectors -/

/-- An expression is a vector of accounts with the given roles. -/
def IsVector (roles : List AccountRole) (expr : Expr) : Prop :=
  ∃ path tokens, Wrapped (.macroCall ⟨path, tokens⟩) expr ∧ path.leaf? = some "vec" ∧
    AccountRole.ofStream tokens = roles

/-- An expression is a name, whatever it is qualified with. -/
def IsName (name : String) (expr : Expr) : Prop :=
  ∃ path, Wrapped (.path path) expr ∧ path.leaf? = some name

/-- An expression is a vector of accounts, or the name of a variable that holds one. -/
def LeadsToVector (visible : String → Option Expr) (roles : List AccountRole) (expr : Expr) :
    Prop :=
  IsVector roles expr ∨
    ∃ name value, IsName name expr ∧ visible name = some value ∧ IsVector roles value

theorem vectorRoles?_eq_some_iff {expr : Expr} {roles : List AccountRole} :
    Scope.vectorRoles? expr = some roles ↔ IsVector roles expr := by
  unfold Scope.vectorRoles?
  constructor
  · intro h
    have hw := wrapped_peel expr
    split at h
    · next call hpeel =>
      obtain ⟨path, tokens⟩ := call
      rw [hpeel] at hw
      rw [Option.ite_none_right_eq_some, Option.some.injEq] at h
      exact ⟨path, tokens, hw, h.1, h.2⟩
    · cases h
  · rintro ⟨path, tokens, hw, hleaf, rfl⟩
    rw [hw.peel_eq]
    exact if_pos hleaf

theorem isName_iff {name : String} {expr : Expr} :
    expr.path?.bind Path.leaf? = some name ↔ IsName name expr := by
  constructor
  · intro h
    obtain ⟨path, hpath, hleaf⟩ := Option.bind_eq_some_iff.mp h
    have hw := wrapped_peel expr
    unfold Expr.path? at hpath
    split at hpath
    · next found hpeel =>
      cases hpath
      rw [hpeel] at hw
      exact ⟨path, hw, hleaf⟩
    · cases hpath
  · rintro ⟨path, hw, hleaf⟩
    rw [hw.path?_eq, Option.bind_some, hleaf]

theorem IsName.vectorRoles?_eq {name : String} {expr : Expr} (h : IsName name expr) :
    Scope.vectorRoles? expr = none := by
  obtain ⟨path, hw, -⟩ := h
  unfold Scope.vectorRoles?
  rw [hw.peel_eq]
  rfl

/-- **The roles that an expression leads to** in a function. -/
theorem Scope.roles?_eq_some_iff {item : FunctionItem} {expr : Expr} {roles : List AccountRole} :
    (Scope.ofFunction item).roles? expr = some roles ↔
      LeadsToVector (visibleAfter item.block.stmts) roles expr := by
  have hlocal : ((expr.path?.bind Path.leaf?).bind fun name =>
      ((Scope.ofFunction item).initializer? name).bind Scope.vectorRoles?) = some roles ↔
        ∃ name value, IsName name expr ∧ visibleAfter item.block.stmts name = some value ∧
          IsVector roles value := by
    rw [Option.bind_eq_some_iff]
    refine exists_congr fun name => ?_
    rw [isName_iff, Scope.initializer?_eq_visibleAfter, Option.bind_eq_some_iff]
    simp only [vectorRoles?_eq_some_iff, exists_and_left]
  unfold Scope.roles? LeadsToVector
  rw [Option.or_eq_some_iff, vectorRoles?_eq_some_iff, hlocal]
  refine or_congr_right ⟨And.right, ?_⟩
  rintro ⟨name, value, hname, hvalue⟩
  exact ⟨hname.vectorRoles?_eq, name, value, hname, hvalue⟩

/-! ### Forms -/

/-- The expression `Ok(Instruction { program_id, accounts, data })`, with the given values of the
fields. -/
def okLiteral (program data accounts : Expr) : Expr :=
  .call (.path (plainPath ["Ok"]))
    [.struct (plainPath ["Instruction"])
      [⟨⟨"program_id"⟩, program⟩, ⟨⟨"accounts"⟩, accounts⟩, ⟨⟨"data"⟩, data⟩]]

/-- The expression `Instruction::new_with_borsh(program_id, data, accounts)`. -/
def borshCall (program data accounts : Expr) : Expr :=
  .call (.path (plainPath ["Instruction", "new_with_borsh"])) [program, data, accounts]

/-- What a function puts together to an instruction, after statements that bind neither `data` nor
`accounts`. -/
structure InstructionParts where
  visibility : Visibility
  signature : Signature
  earlier : List Stmt
  program : Expr
  data : Expr
  accounts : Expr
  named : signature.ident.text ≠ ""
  data_unbound : Unbound "data" earlier
  accounts_unbound : Unbound "accounts" earlier

/-- A way to put an instruction together. -/
inductive ConstructionForm where
  /-- `let data = ..; let accounts = ..; Ok(Instruction { program_id, accounts, data })` -/
  | locals
  /-- `Ok(Instruction { program_id, accounts: .., data: .. })` -/
  | literal
  /-- `Instruction::new_with_borsh(program_id, .., ..)` -/
  | call

namespace ConstructionForm

/-- The statements that put an instruction together. -/
def stmts (parts : InstructionParts) : ConstructionForm → List Stmt
  | locals =>
    [letStmt "data" parts.data, letStmt "accounts" parts.accounts,
      .expr (okLiteral parts.program (.path (plainPath ["data"])) (.path (plainPath ["accounts"])))]
  | literal => [.expr (okLiteral parts.program parts.data parts.accounts)]
  | call => [.expr (borshCall parts.program parts.data parts.accounts)]

/-- The function that puts an instruction together in a certain way. -/
def function (parts : InstructionParts) (form : ConstructionForm) : FunctionItem :=
  ⟨parts.visibility, parts.signature, ⟨parts.earlier ++ form.stmts parts⟩⟩

end ConstructionForm

theorem finalConstruction_okLiteral (earlier : List Stmt) (program data accounts : Expr) :
    FinalConstruction data accounts (earlier ++ [.expr (okLiteral program data accounts)]) := by
  have hnames : NamesInstruction (plainPath ["Instruction"]) :=
    ⟨"Instruction", by decide, "", "", rfl⟩
  have hok : (plainPath ["Ok"]).idents = [] ++ ["Ok"] := rfl
  have hdata : HasField "data" data
      [⟨⟨"program_id"⟩, program⟩, ⟨⟨"accounts"⟩, accounts⟩, ⟨⟨"data"⟩, data⟩] :=
    ⟨[⟨⟨"program_id"⟩, program⟩, ⟨⟨"accounts"⟩, accounts⟩], [], rfl, by simp⟩
  have haccounts : HasField "accounts" accounts
      [⟨⟨"program_id"⟩, program⟩, ⟨⟨"accounts"⟩, accounts⟩, ⟨⟨"data"⟩, data⟩] :=
    ⟨[⟨⟨"program_id"⟩, program⟩], [⟨⟨"data"⟩, data⟩], rfl, by simp⟩
  exact ⟨earlier, _, [], _, _, rfl, rfl, .ok .bare hok .bare (.bare .bare),
    .literal hnames hdata haccounts, rfl⟩

theorem finalConstruction_borshCall (earlier : List Stmt) (program data accounts : Expr) :
    FinalConstruction data accounts (earlier ++ [.expr (borshCall program data accounts)]) := by
  have hnames : NamesInstruction (plainPath ["Instruction", "new_with_borsh"]) :=
    ⟨"Instruction", by decide, "", "", rfl⟩
  have hmaker : (plainPath ["Instruction", "new_with_borsh"]).idents =
      ["Instruction"] ++ ["new_with_" ++ "borsh"] := by decide
  exact ⟨earlier, _, [], _, _, rfl, rfl, .bare (.bare .bare), .call .bare hnames hmaker, rfl⟩

theorem visibleAfter_concat_expr (earlier : List Stmt) (expr : Expr) :
    visibleAfter (earlier ++ [.expr expr]) = visibleAfter earlier := by
  unfold visibleAfter
  rw [List.foldl_append]
  rfl

theorem unbound_concat_expr {name : String} {earlier : List Stmt} (h : Unbound name earlier)
    (expr : Expr) : Unbound name (earlier ++ [.expr expr]) := by
  refine unbound_append_iff.mpr ⟨h, fun pat init hmem => ?_⟩
  cases List.mem_singleton.mp hmem

theorem FinalConstruction.recovered {item : FunctionItem} {data accounts : Expr}
    (h : FinalConstruction data accounts item.block.stmts) (hname : item.signature.ident.text ≠ "")
    (hdata : Unbound "data" item.block.stmts) (haccounts : Unbound "accounts" item.block.stmts) :
    ∃ builder, Builder.ofFunction? item = some builder ∧
      builder.reference = (Scope.ofFunction item).reference? data ∧
      builder.accounts = (Scope.ofFunction item).roles? accounts := by
  obtain ⟨builder, hbuilder, hreference, hroles⟩ := Builder.ofFunction?_of_named hname
  rw [h.ofStmts?_eq, Option.getD_some] at hreference hroles
  refine ⟨builder, hbuilder, ?_, ?_⟩
  · simp only [hreference, Builder.reference?, hdata.initializer?_eq, Option.bind_some]
  · simp only [hroles, Builder.accounts?, haccounts.initializer?_eq, Option.bind_none,
      Option.none_or, Option.bind_some]

/-! ### Local variables -/

namespace InstructionParts

/-- What is visible at the end of a function with the local variables `data` and `accounts`. -/
def visible (parts : InstructionParts) : String → Option Expr :=
  Function.update (Function.update (visibleAfter parts.earlier) "data" (some parts.data)) "accounts"
    (some parts.accounts)

theorem visibleAfter_locals (parts : InstructionParts) :
    visibleAfter (parts.earlier ++ ConstructionForm.locals.stmts parts) = parts.visible := by
  unfold visibleAfter
  rw [List.foldl_append]
  rfl

/-- The variables `data` and `accounts` do not matter for what the data refers to, unless it refers
to the name `accounts`. -/
theorem aliased_visible (parts : InstructionParts) {name : String}
    (hdirect : Reference.direct? parts.data = some name) (hne : name ≠ "accounts") :
    aliased parts.visible name = aliased (visibleAfter parts.earlier) name := by
  unfold aliased visible
  rw [Function.update_of_ne hne]
  by_cases hname : name = "data"
  · -- The data refers to its own name, so nothing is gained by following it.
    subst hname
    rw [Function.update_self, Option.bind_some, hdirect,
      visibleAfter_of_unbound parts.data_unbound]
    rfl
  · rw [Function.update_of_ne hname]

theorem recovered_locals (parts : InstructionParts) :
    ∃ builder, Builder.ofFunction? (ConstructionForm.locals.function parts) = some builder ∧
      builder.reference =
        (Scope.ofFunction (ConstructionForm.locals.function parts)).reference? parts.data ∧
      ∀ roles, builder.accounts = some roles ↔ IsVector roles parts.accounts := by
  set item := ConstructionForm.locals.function parts with hitem
  have hvisible : ∀ name, (Scope.ofFunction item).initializer? name = parts.visible name := by
    intro name
    rw [Scope.initializer?_eq_visibleAfter]
    exact congrFun parts.visibleAfter_locals name
  have hdata : (Scope.ofFunction item).initializer? "data" = some parts.data := by
    rw [hvisible, visible, Function.update_of_ne (by decide), Function.update_self]
  have haccounts : (Scope.ofFunction item).initializer? "accounts" = some parts.accounts := by
    rw [hvisible, visible, Function.update_self]
  have hconstruction : Construction.ofStmts? item.block.stmts =
      some ⟨some (.path (plainPath ["data"])), some (.path (plainPath ["accounts"]))⟩ := by
    have hfinal := finalConstruction_okLiteral
      (parts.earlier ++ [letStmt "data" parts.data, letStmt "accounts" parts.accounts])
      parts.program (.path (plainPath ["data"])) (.path (plainPath ["accounts"]))
    rw [List.append_assoc] at hfinal
    exact hfinal.ofStmts?_eq
  -- The field `accounts` names the variable, so it leads to the same vector.
  have hroles : (Scope.ofFunction item).roles? (.path (plainPath ["accounts"])) =
      Scope.vectorRoles? parts.accounts := by
    have hleaf : (Expr.path (plainPath ["accounts"])).path?.bind Path.leaf? = some "accounts" := rfl
    unfold Scope.roles?
    rw [hleaf, Option.bind_some, haccounts, Option.bind_some]
    rfl
  have hnamed : item.signature.ident.text ≠ "" := parts.named
  obtain ⟨builder, hbuilder, hreference, hfound⟩ := Builder.ofFunction?_of_named hnamed
  rw [hconstruction, Option.getD_some] at hreference hfound
  refine ⟨builder, hbuilder, ?_, fun roles => ?_⟩
  · simp only [hreference, Builder.reference?, hdata]
  · simp only [hfound, Builder.accounts?, haccounts, Option.bind_some, hroles, Option.or_self]
    exact vectorRoles?_eq_some_iff

/-- **What is known of a literal or a call**: both are read in what is visible after the statements
before it. -/
theorem recovered_construction (parts : InstructionParts) (form : ConstructionForm) {expr : Expr}
    (hstmts : form.stmts parts = [.expr expr])
    (hfinal : FinalConstruction parts.data parts.accounts (parts.earlier ++ [.expr expr])) :
    ∃ builder, Builder.ofFunction? (form.function parts) = some builder ∧
      builder.reference = (Reference.direct? parts.data).map (fun reference =>
        if Reference.isQualified reference then reference
        else aliased (visibleAfter parts.earlier) reference) ∧
      ∀ roles, builder.accounts = some roles ↔
        LeadsToVector (visibleAfter parts.earlier) roles parts.accounts := by
  set item := form.function parts with hitem
  have hbody : item.block.stmts = parts.earlier ++ [.expr expr] := by
    rw [hitem, ConstructionForm.function, hstmts]
  have hvisible : visibleAfter item.block.stmts = visibleAfter parts.earlier := by
    rw [hbody, visibleAfter_concat_expr]
  have hdata : Unbound "data" item.block.stmts := by
    rw [hbody]
    exact unbound_concat_expr parts.data_unbound expr
  have haccounts : Unbound "accounts" item.block.stmts := by
    rw [hbody]
    exact unbound_concat_expr parts.accounts_unbound expr
  rw [← hbody] at hfinal
  obtain ⟨builder, hbuilder, hreference, hroles⟩ := hfinal.recovered parts.named hdata haccounts
  refine ⟨builder, hbuilder, ?_, fun roles => ?_⟩
  · rw [hreference, Scope.reference?_eq, hvisible]
  · rw [hroles, Scope.roles?_eq_some_iff, hvisible]

end InstructionParts

/-- **Three ways to put an instruction together.** A literal and a call always agree. Local
variables agree with them in the reference, unless the data refers to the name `accounts`. In the
accounts they agree if these are a vector, but if the variable `accounts` is bound to the name of a
variable that holds the vector, this name is not followed. -/
theorem construction_forms_compared (parts : InstructionParts) :
    ∃ locals literal call,
      Builder.ofFunction? (ConstructionForm.locals.function parts) = some locals ∧
      Builder.ofFunction? (ConstructionForm.literal.function parts) = some literal ∧
      Builder.ofFunction? (ConstructionForm.call.function parts) = some call ∧
      literal.reference = call.reference ∧ literal.accounts = call.accounts ∧
      (Reference.direct? parts.data ≠ some "accounts" → locals.reference = literal.reference) ∧
      (Reference.direct? parts.data = some "accounts" → literal.reference = some "accounts" ∧
        locals.reference = some ((Reference.direct? parts.accounts).getD "accounts")) ∧
      (∀ roles, locals.accounts = some roles ↔ IsVector roles parts.accounts) ∧
      (∀ roles, literal.accounts = some roles ↔
        LeadsToVector (visibleAfter parts.earlier) roles parts.accounts) := by
  obtain ⟨locals, hlocals, hlocalsReference, hlocalsAccounts⟩ := parts.recovered_locals
  obtain ⟨literal, hliteral, hliteralReference, hliteralAccounts⟩ :=
    parts.recovered_construction .literal rfl (finalConstruction_okLiteral _ _ _ _)
  obtain ⟨call, hcall, hcallReference, hcallAccounts⟩ :=
    parts.recovered_construction .call rfl (finalConstruction_borshCall _ _ _ _)
  have hvisible : visibleAfter (ConstructionForm.locals.function parts).block.stmts =
      parts.visible := parts.visibleAfter_locals
  rw [Scope.reference?_eq, hvisible] at hlocalsReference
  have hbare : Reference.isQualified "accounts" = false := by decide
  refine ⟨locals, literal, call, hlocals, hliteral, hcall, ?_, ?_, ?_, ?_, hlocalsAccounts,
    hliteralAccounts⟩
  · rw [hliteralReference, hcallReference]
  · exact Option.ext fun roles => (hliteralAccounts roles).trans (hcallAccounts roles).symm
  · intro hne
    rw [hlocalsReference, hliteralReference]
    refine Option.map_congr fun reference hdirect => ?_
    have hreference : reference ≠ "accounts" := by
      rintro rfl
      exact hne hdirect
    rw [parts.aliased_visible hdirect hreference]
  · intro hdirect
    rw [hlocalsReference, hliteralReference, hdirect, Option.map_some, Option.map_some, hbare]
    constructor
    · rw [aliased, visibleAfter_of_unbound parts.accounts_unbound]
      rfl
    · rw [aliased, InstructionParts.visible, Function.update_self]
      rfl

/-- The parts of `let metas = vec![payer];` and then `Op::Close` with the accounts `metas`. -/
def metasParts : InstructionParts where
  visibility := .everywhere
  signature := ⟨⟨"close"⟩, []⟩
  earlier := [letStmt "metas" (.macroCall ⟨plainPath ["vec"], [.ident "payer"]⟩)]
  program := .path (plainPath ["program_id"])
  data := closeOp
  accounts := .path (plainPath ["metas"])
  named := by decide
  data_unbound := unbound_letStmt (by decide) _
  accounts_unbound := unbound_letStmt (by decide) _

/-- After `let metas = vec![payer];` a literal and a call with the accounts `metas` have the account
`payer`, but `let accounts = metas;` has no accounts. -/
theorem named_vector_lost_in_locals :
    (Builder.ofFunction? (ConstructionForm.locals.function metasParts)).map Builder.accounts =
        some none ∧
      (Builder.ofFunction? (ConstructionForm.literal.function metasParts)).map Builder.accounts =
        some (some [⟨some "payer", false, false⟩]) ∧
      (Builder.ofFunction? (ConstructionForm.call.function metasParts)).map Builder.accounts =
        some (some [⟨some "payer", false, false⟩]) := by
  decide

end AbiRecovery
