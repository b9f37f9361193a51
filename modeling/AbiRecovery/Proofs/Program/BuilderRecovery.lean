import AbiRecovery.Analysis
import AbiRecovery.Proofs.Program.AccountVector
import AbiRecovery.Proofs.Program.References

/-!
# The accounts of an instruction

How a function that builds an instruction may be written: the data is a value of the variant, maybe
serialized by a method (`Payload`), the accounts are a vector (`VectorOf`), and both are local
variables or are given to the instruction where it is put together (`Assembles`). Each shape has a
lemma that says what is read from it, one case per way to write it: the reference of a payload
(`Payload.reference?_eq`), the initial value of a variable (`LastBinding.initializer?_eq`), the
construction of an instruction (`FinalConstruction.ofStmts?_eq`).

From these follows what is known of such a function (`Assembles.ofFunction?_eq`), and that an
instruction has the accounts of the first function that builds it.
-/

namespace AbiRecovery

open AbiRecovery.Tree

/-! ### Payloads -/

/-- An expression with parentheses, borrows and unary operators around it. -/
inductive Wrapped (inner : Expr) : Expr → Prop
  | bare : Wrapped inner inner
  | paren {expr : Expr} : Wrapped inner expr → Wrapped inner (.paren expr)
  | reference {expr : Expr} : Wrapped inner expr → Wrapped inner (.reference expr)
  | unary {expr : Expr} : Wrapped inner expr → Wrapped inner (.unary expr)

theorem Wrapped.peel_eq {inner expr : Expr} (h : Wrapped inner expr) : expr.peel = inner.peel := by
  induction h with
  | bare => rfl
  | paren _ ih => exact ih
  | reference _ ih => exact ih
  | unary _ ih => exact ih

theorem Wrapped.path?_eq {path : Path} {expr : Expr} (h : Wrapped (.path path) expr) :
    expr.path? = some path := by
  rw [Expr.path?, h.peel_eq]
  rfl

/-- A value that is made of a path: by a call of the path, by the path alone, or by a literal. -/
inductive ValueOf (path : Path) : Expr → Prop
  | call {func : Expr} (args : List Expr) :
    Wrapped (.path path) func → ValueOf path (.call func args)
  | path : ValueOf path (.path path)
  | struct (fields : List FieldValue) : ValueOf path (.struct path fields)

/-- An expression whose value is taken out of results: by the operator `?` or by the methods
`unwrap` and `expect`, with parentheses, borrows and unary operators in between. -/
inductive TakenOut (inner : Expr) : Expr → Prop
  | bare : TakenOut inner inner
  | paren {expr : Expr} : TakenOut inner expr → TakenOut inner (.paren expr)
  | reference {expr : Expr} : TakenOut inner expr → TakenOut inner (.reference expr)
  | unary {expr : Expr} : TakenOut inner expr → TakenOut inner (.unary expr)
  | question {expr : Expr} : TakenOut inner expr → TakenOut inner (.question expr)
  | unwrap {expr : Expr} (args : List Expr) :
    TakenOut inner expr → TakenOut inner (.methodCall expr ⟨"unwrap"⟩ args)
  | expect {expr : Expr} (args : List Expr) :
    TakenOut inner expr → TakenOut inner (.methodCall expr ⟨"expect"⟩ args)

/-- The data of an instruction: a value, or what a method such as a serializer makes of it. -/
inductive Payload (path : Path) : Expr → Prop
  | value {value expr : Expr} : ValueOf path value → Wrapped value expr → Payload path expr
  | serialized {value receiver expr : Expr} {method : Ident} {args : List Expr} :
    ValueOf path value → Wrapped value receiver → method.text ≠ "unwrap" → method.text ≠ "expect" →
      TakenOut (.methodCall receiver method args) expr → Payload path expr

theorem Wrapped.takenOut {inner expr : Expr} (h : Wrapped inner expr) : TakenOut inner expr := by
  induction h with
  | bare => exact .bare
  | paren _ ih => exact .paren ih
  | reference _ ih => exact .reference ih
  | unary _ ih => exact .unary ih

theorem TakenOut.unwrapped_eq {inner expr : Expr} (h : TakenOut inner expr) :
    Reference.unwrapped expr = Reference.unwrapped inner := by
  induction h with
  | bare => rfl
  | paren _ ih => rw [Reference.unwrapped, ih]
  | reference _ ih => rw [Reference.unwrapped, ih]
  | unary _ ih => rw [Reference.unwrapped, ih]
  | question _ ih => rw [Reference.unwrapped, ih]
  | unwrap _ _ ih => rw [Reference.unwrapped, if_pos (by decide), ih]
  | expect _ _ ih => rw [Reference.unwrapped, if_pos (by decide), ih]

theorem ValueOf.ofValue?_eq {path : Path} {value expr : Expr} (h : ValueOf path value)
    (hw : Wrapped value expr) : Reference.ofValue? expr = path.joined? := by
  unfold Reference.ofValue?
  rw [hw.peel_eq]
  cases h with
  | call args hfunc =>
    simp only [Expr.peel, hfunc.path?_eq]
    rfl
  | path => rfl
  | struct fields => rfl

theorem ValueOf.ofReceiver?_eq {path : Path} {value expr : Expr} (h : ValueOf path value)
    (hw : Wrapped value expr) : Reference.ofReceiver? expr = none := by
  unfold Reference.ofReceiver?
  rw [hw.takenOut.unwrapped_eq]
  cases h <;> rfl

theorem Payload.direct?_eq {path : Path} {expr : Expr} {reference : String} (h : Payload path expr)
    (hpath : path.joined? = some reference) : Reference.direct? expr = some reference := by
  unfold Reference.direct?
  cases h with
  | value hvalue hw => rw [hvalue.ofReceiver?_eq hw, hvalue.ofValue?_eq hw, Option.none_or, hpath]
  | @serialized value receiver _ method args hvalue hw hunwrap hexpect hout =>
    have hmethod : Reference.isUnwrap method = false := by
      unfold Reference.isUnwrap Ident.name?
      split_ifs <;> simp [hunwrap, hexpect]
    have hreceiver : Reference.ofReceiver? expr = some reference := by
      unfold Reference.ofReceiver?
      rw [hout.unwrapped_eq, Reference.unwrapped, hmethod]
      simp only [Bool.false_eq_true, if_false]
      rw [hvalue.ofValue?_eq hw, hpath]
    rw [hreceiver, Option.some_or]

theorem Payload.reference?_eq {path : Path} {expr : Expr} {outer : List String}
    {enumName variantName : String} (h : Payload path expr)
    (hpath : path.idents = outer ++ [enumName, variantName]) (scope : Scope) :
    ∃ reference, scope.reference? expr = some reference ∧
      EndsIn enumName variantName reference := by
  obtain ⟨reference, hjoined, hends⟩ := endsIn_joined hpath
  refine ⟨reference, ?_, hends⟩
  unfold Scope.reference?
  rw [h.direct?_eq hjoined, Option.map_some, if_pos hends.isQualified]

/-- A vector of written accounts. -/
inductive VectorOf (specs : List AccountSpec) : Expr → Prop
  | intro {path : Path} {outer : List String} {expr : Expr} (trailing : Bool) :
    path.idents = outer ++ ["vec"] →
      Wrapped (.macroCall ⟨path, AccountSpec.vector trailing specs⟩) expr → VectorOf specs expr

theorem VectorOf.vectorRoles?_eq {specs : List AccountSpec} {expr : Expr}
    (h : VectorOf specs expr) :
    Scope.vectorRoles? expr = some (specs.map AccountSpec.role) := by
  obtain ⟨trailing, hpath, hw⟩ := h
  unfold Scope.vectorRoles?
  rw [hw.peel_eq]
  simp only [Expr.peel, Path.leaf?, hpath, List.getLast?_append, List.getLast?_singleton,
    Option.some_or, if_true, AccountSpec.ofStream_vector]

/-! ### Local variables -/

/-- **Parameters are never followed**: the initial value of a name is that of the latest local
variable of this name, whatever the parameters are. -/
theorem Scope.initializer?_ofFunction (item : FunctionItem) (name : String) :
    (Scope.ofFunction item).initializer? name =
      ((item.block.stmts.filterMap Binding.ofStmt?).reverse.find? fun binding =>
        binding.name = name).bind Binding.init? := by
  have hparams : ∀ binding ∈ item.signature.inputs.filterMap Binding.ofParam?,
      binding.init? = none := by
    intro binding h
    obtain ⟨param, -, hparam⟩ := List.mem_filterMap.mp h
    cases param with
    | typed pat type =>
      obtain ⟨bound, -, rfl⟩ := Option.map_eq_some_iff.mp hparam
      rfl
    | receiver | other => cases hparam
  unfold Scope.initializer? Scope.ofFunction
  rw [List.reverse_append, List.find?_append]
  cases (item.block.stmts.filterMap Binding.ofStmt?).reverse.find? fun binding =>
    binding.name = name with
  | some binding => rfl
  | none =>
    rw [Option.none_or, Option.bind_none]
    cases hfind : (item.signature.inputs.filterMap Binding.ofParam?).reverse.find? fun binding =>
      binding.name = name with
    | none => rfl
    | some binding =>
      exact hparams binding (List.mem_reverse.mp (List.mem_of_find?_eq_some hfind))

/-- No statement binds a name. -/
def Unbound (name : String) (stmts : List Stmt) : Prop :=
  ∀ pat init, Stmt.binding pat init ∈ stmts → pat.bindingName? ≠ some name

/-- The last statement that binds a name gives it an initial value. -/
def LastBinding (name : String) (value : Expr) (stmts : List Stmt) : Prop :=
  ∃ before pat after, stmts = before ++ .binding pat (some value) :: after ∧
    pat.bindingName? = some name ∧ Unbound name after

theorem Unbound.find?_eq {name : String} {stmts : List Stmt} (h : Unbound name stmts) :
    (stmts.filterMap Binding.ofStmt?).reverse.find? (fun binding => binding.name = name) =
      none := by
  rw [List.find?_eq_none]
  intro binding hmem
  obtain ⟨stmt, hstmt, hof⟩ := List.mem_filterMap.mp (List.mem_reverse.mp hmem)
  cases stmt with
  | binding pat init =>
    obtain ⟨bound, hbound, rfl⟩ := Option.map_eq_some_iff.mp hof
    intro heq
    have hname : bound = name := of_decide_eq_true heq
    exact h pat init hstmt (hname ▸ hbound)
  | expr value => cases hof
  | semi value => cases hof
  | other => cases hof

theorem Unbound.initializer?_eq {item : FunctionItem} {name : String}
    (h : Unbound name item.block.stmts) : (Scope.ofFunction item).initializer? name = none := by
  rw [Scope.initializer?_ofFunction, h.find?_eq, Option.bind_none]

theorem LastBinding.initializer?_eq {item : FunctionItem} {name : String} {value : Expr}
    (h : LastBinding name value item.block.stmts) :
    (Scope.ofFunction item).initializer? name = some value := by
  obtain ⟨before, pat, after, hstmts, hname, hafter⟩ := h
  have hof : Binding.ofStmt? (.binding pat (some value)) = some (.localVar name (some value)) := by
    rw [Binding.ofStmt?, hname, Option.map_some]
  rw [Scope.initializer?_ofFunction, hstmts, List.filterMap_append,
    List.filterMap_cons_some hof, List.reverse_append, List.reverse_cons, List.append_assoc,
    List.find?_append, hafter.find?_eq, Option.none_or, List.singleton_append,
    List.find?_cons_of_pos (by simp [Binding.name])]
  rfl

/-! ### Constructions -/

/-- A path that names an instruction type. -/
def NamesInstruction (path : Path) : Prop :=
  ∃ name ∈ path.idents, ∃ front back, name = front ++ "Instruction" ++ back

/-- A literal gives a value to a field. -/
def HasField (name : String) (value : Expr) (fields : List FieldValue) : Prop :=
  ∃ before after, fields = before ++ ⟨⟨name⟩, value⟩ :: after ∧
    ∀ field ∈ before, field.member.text ≠ name

/-- An instruction is put together from its data and its accounts: by a literal
`Instruction { data, accounts, .. }` or by a call
`Instruction::new_with_..(program, data, accounts)`. -/
inductive Constructs (data accounts : Expr) : Expr → Prop
  | literal {path : Path} {fields : List FieldValue} : NamesInstruction path →
    HasField "data" data fields → HasField "accounts" accounts fields →
      Constructs data accounts (.struct path fields)
  | call {path : Path} {outer : List String} {suffix : String} {func program : Expr} :
    Wrapped (.path path) func → NamesInstruction path →
      path.idents = outer ++ ["new_with_" ++ suffix] →
        Constructs data accounts (.call func [program, data, accounts])

/-- A value that may stand behind `return`. -/
inductive Returned (value : Expr) : Expr → Prop
  | bare {expr : Expr} : Wrapped value expr → Returned value expr
  | ret {body expr : Expr} : Wrapped value body → Wrapped (.ret (some body)) expr →
    Returned value expr

/-- A value that may stand in `Ok(..)`, and that behind `return`. -/
inductive Delivered (value : Expr) : Expr → Prop
  | bare {expr : Expr} : Returned value expr → Delivered value expr
  | ok {path : Path} {outer : List String} {func arg expr : Expr} : Wrapped (.path path) func →
    path.idents = outer ++ ["Ok"] → Wrapped value arg → Returned (.call func [arg]) expr →
      Delivered value expr

/-- The last statement that puts an instruction together does so from its data and accounts. -/
def FinalConstruction (data accounts : Expr) (stmts : List Stmt) : Prop :=
  ∃ before stmt after expr value, stmts = before ++ stmt :: after ∧ stmt.expr? = some expr ∧
    Delivered value expr ∧ Constructs data accounts value ∧ Construction.ofStmts? after = none

theorem NamesInstruction.namesInstruction_eq {path : Path} (h : NamesInstruction path) :
    Construction.namesInstruction path = true := by
  obtain ⟨name, hname, front, back, rfl⟩ := h
  refine List.any_eq_true.mpr ⟨_, hname, ?_⟩
  rw [Text.hasInfix, Text.hasInfixChars_iff]
  exact ⟨front.toList, back.toList, by simp [instructionHint]⟩

theorem HasField.fieldValue?_eq {name : String} {value : Expr} {fields : List FieldValue}
    (h : HasField name value fields) (hname : name ≠ "") :
    fieldValue? name fields = some value := by
  obtain ⟨before, after, rfl, hbefore⟩ := h
  have hnone : before.find? (fun field => field.member.name? = some name) = none := by
    rw [List.find?_eq_none]
    intro field hfield
    have hne := hbefore field hfield
    unfold Ident.name?
    split_ifs <;> simp [hne]
  unfold fieldValue?
  rw [List.find?_append, hnone, Option.none_or,
    List.find?_cons_of_pos (by simp [Ident.name?, hname])]
  rfl

/-- **What an instruction is given** is read from its construction. -/
theorem Constructs.ofExpr?_eq {data accounts value : Expr} (h : Constructs data accounts value) :
    Construction.ofExpr? value = some ⟨some data, some accounts⟩ := by
  cases h with
  | literal hpath hdata haccounts =>
    rw [Construction.ofExpr?, if_pos hpath.namesInstruction_eq,
      hdata.fieldValue?_eq (by decide), haccounts.fieldValue?_eq (by decide)]
  | @call path outer suffix func program hfunc hpath hleaf =>
    have hmaker : Construction.isMaker path = true := by
      unfold Construction.isMaker Path.leaf?
      rw [hleaf, List.getLast?_append, List.getLast?_singleton, Option.some_or]
      simp
    simp only [Construction.ofExpr?, hfunc.path?_eq, hpath.namesInstruction_eq, hmaker]
    rfl

theorem Returned.peel_eq {value expr : Expr} (h : Returned value expr) (hpeel : value.peel = value)
    (hreturned : value.returned = value) : expr.peel.returned.peel = value := by
  cases h with
  | bare hw => rw [hw.peel_eq, hpeel, hreturned, hpeel]
  | @ret body _ hbody hw =>
    rw [hw.peel_eq]
    exact hbody.peel_eq.trans hpeel

theorem isOk_of_leaf {path : Path} {outer : List String} {leaf : String} {func : Expr}
    (hfunc : Wrapped (.path path) func) (hpath : path.idents = outer ++ [leaf]) :
    func.isOk = decide (leaf = "Ok") := by
  unfold Expr.isOk
  rw [hfunc.path?_eq]
  simp only [Path.leaf?, hpath, List.getLast?_append, List.getLast?_singleton, Option.some_or,
    Option.some.injEq]

theorem Delivered.statementValue?_eq {data accounts value expr : Expr} {stmt : Stmt}
    (h : Delivered value expr) (hc : Constructs data accounts value)
    (hstmt : stmt.expr? = some expr) : Construction.statementValue? stmt = some value := by
  have hpeel : value.peel = value := by cases hc <;> rfl
  have hreturned : value.returned = value := by cases hc <;> rfl
  unfold Construction.statementValue?
  rw [hstmt, Option.map_some]
  cases h with
  | bare hr =>
    rw [hr.peel_eq hpeel hreturned]
    cases hc with
    | literal => rfl
    | @call _ _ suffix _ _ hfunc _ hleaf =>
      have hne : "new_with_" ++ suffix ≠ "Ok" := by
        intro heq
        have hchars := congrArg String.toList heq
        simp at hchars
      simp only
      rw [isOk_of_leaf hfunc hleaf, if_neg (by simpa using hne)]
  | ok hfunc hpath harg hr =>
    rw [hr.peel_eq rfl rfl]
    simp only
    rw [isOk_of_leaf hfunc hpath, if_pos (by simp), List.head?_cons, Option.map_some, harg.peel_eq,
      hpeel]

/-- **The last construction** among statements counts. -/
theorem FinalConstruction.ofStmts?_eq {data accounts : Expr} {stmts : List Stmt}
    (h : FinalConstruction data accounts stmts) :
    Construction.ofStmts? stmts = some ⟨some data, some accounts⟩ := by
  obtain ⟨before, stmt, after, expr, value, rfl, hstmt, hdelivered, hconstructs, hafter⟩ := h
  unfold Construction.ofStmts? at hafter ⊢
  rw [List.reverse_append, List.reverse_cons, List.append_assoc, List.findSome?_append, hafter,
    Option.none_or, List.singleton_append, List.findSome?_cons,
    hdelivered.statementValue?_eq hconstructs hstmt, Option.bind_some, hconstructs.ofExpr?_eq]

/-! ### Functions -/

/-- A function body **assembles** an instruction from data with the given path and from accounts: in
the variables `data` and `accounts`, or without such variables where the instruction is put
together. -/
inductive Assembles (path : Path) (specs : List AccountSpec) (stmts : List Stmt) : Prop
  | locals {data accounts : Expr} : LastBinding "data" data stmts →
    LastBinding "accounts" accounts stmts → Payload path data → VectorOf specs accounts →
      Assembles path specs stmts
  | construction {data accounts : Expr} : Unbound "data" stmts → Unbound "accounts" stmts →
    FinalConstruction data accounts stmts → Payload path data → VectorOf specs accounts →
      Assembles path specs stmts

/-- **What is known of a function that assembles an instruction**: its reference ends in the
variant, and its accounts are those of the vector. -/
theorem Assembles.ofFunction?_eq {path : Path} {specs : List AccountSpec} {item : FunctionItem}
    {outer : List String} {enumName variantName : String}
    (h : Assembles path specs item.block.stmts)
    (hpath : path.idents = outer ++ [enumName, variantName])
    (hname : item.signature.ident.text ≠ "") :
    ∃ builder reference, Builder.ofFunction? item = some builder ∧
      builder.reference = some reference ∧ EndsIn enumName variantName reference ∧
      builder.accounts = some (specs.map AccountSpec.role) := by
  have hident : item.signature.ident.name? = some item.signature.ident.text := if_neg hname
  unfold Builder.ofFunction?
  rw [hident]
  cases h with
  | locals hdata haccounts hpayload hvector =>
    obtain ⟨reference, hreference, hends⟩ :=
      hpayload.reference?_eq hpath (Scope.ofFunction item)
    refine ⟨_, reference, rfl, ?_, hends, ?_⟩
    · simp only [Builder.reference?, hdata.initializer?_eq, hreference]
    · simp only [Builder.accounts?, haccounts.initializer?_eq, Option.bind_some,
        hvector.vectorRoles?_eq, Option.some_or]
  | construction hdata haccounts hfinal hpayload hvector =>
    obtain ⟨reference, hreference, hends⟩ :=
      hpayload.reference?_eq hpath (Scope.ofFunction item)
    refine ⟨_, reference, rfl, ?_, hends, ?_⟩
    · simp only [Builder.reference?, hdata.initializer?_eq, hfinal.ofStmts?_eq, Option.getD_some,
        Option.bind_some, hreference]
    · simp only [Builder.accounts?, haccounts.initializer?_eq, hfinal.ofStmts?_eq,
        Option.getD_some, Option.bind_none, Option.none_or, Option.bind_some, Scope.roles?,
        hvector.vectorRoles?_eq, Option.some_or]

/-! ### Files -/

theorem accounts?_first {functions before after : List FunctionItem} {item : FunctionItem}
    {builder : Builder} {isBuilder : Builder → Bool}
    (hfunctions : functions = before ++ item :: after)
    (hitem : Builder.ofFunction? item = some builder) (hbuilder : isBuilder builder = true)
    (hfirst : ∀ earlier ∈ before, ∀ other, Builder.ofFunction? earlier = some other →
      isBuilder other = false) :
    Assembly.accounts? (functions.filterMap Builder.ofFunction?) isBuilder = builder.accounts := by
  have hnone : (before.filterMap Builder.ofFunction?).find? isBuilder = none := by
    rw [List.find?_eq_none]
    intro other hother
    obtain ⟨earlier, hearlier, hof⟩ := List.mem_filterMap.mp hother
    simp [hfirst earlier hearlier other hof]
  unfold Assembly.accounts?
  rw [hfunctions, List.filterMap_append, List.filterMap_cons_some hitem, List.find?_append, hnone,
    Option.none_or, List.find?_cons_of_pos hbuilder, Option.bind_some]

theorem exists_first_of_find? {functions : List FunctionItem} {isBuilder : Builder → Bool}
    {builder : Builder}
    (h : (functions.filterMap Builder.ofFunction?).find? isBuilder = some builder) :
    ∃ before item after, functions = before ++ item :: after ∧
      Builder.ofFunction? item = some builder ∧ isBuilder builder = true ∧
      ∀ earlier ∈ before, ∀ other, Builder.ofFunction? earlier = some other →
        isBuilder other = false := by
  rw [List.find?_filterMap] at h
  obtain ⟨item, hitem, hbuilder⟩ := Option.bind_eq_some_iff.mp h
  obtain ⟨hany, before, after, hfunctions, hbefore⟩ := List.find?_eq_some_iff_append.mp hitem
  rw [hbuilder, Option.any_some] at hany
  refine ⟨before, item, after, hfunctions, hbuilder, hany, fun earlier hearlier other hother => ?_⟩
  have hnot := hbefore earlier hearlier
  rw [hother, Option.any_some] at hnot
  simpa using hnot

/-- **The accounts of an instruction** are recovered. Let an enum be the instruction enum of a file,
and let a function assemble one of its variants from a vector of accounts, while the reference of no
function before it ends in the variant. Then the instruction of the variant has the roles of these
accounts, in order. -/
theorem accounts_of_first_builder {file : File} {enum : EnumDef} {selection : EnumSelection}
    {variant : EnumVariant} {before after : List FunctionItem} {item : FunctionItem} {path : Path}
    {outer : List String} {specs : List AccountSpec}
    (hselect : selectEnum (file.enums.filterMap EnumDef.ofItem?) = some (enum, selection))
    (hvariant : variant ∈ enum.variants) (henumColon : ':' ∉ enum.name.toList)
    (hvariantColon : ':' ∉ variant.name.toList)
    (hfunctions : file.functions = before ++ item :: after)
    (hname : item.signature.ident.text ≠ "")
    (hfirst : ∀ earlier ∈ before, ∀ builder reference, Builder.ofFunction? earlier = some builder →
      builder.reference = some reference → ¬ EndsIn enum.name variant.name reference)
    (hpath : path.idents = outer ++ [enum.name, variant.name])
    (hassembles : Assembles path specs item.block.stmts) :
    (∃ instruction ∈ (Analysis.ofFile file).instructions,
      instruction.name = variant.name ∧ instruction.code = variant.code) ∧
      ∀ instruction ∈ (Analysis.ofFile file).instructions, instruction.name = variant.name →
        instruction.accounts = some (specs.map AccountSpec.role) := by
  obtain ⟨builder, reference, hbuilder, hreference, hends, haccounts⟩ :=
    hassembles.ofFunction?_eq hpath hname
  have hproduces : builder.produces enum.name variant.name = true :=
    (Builder.produces_iff henumColon hvariantColon).mpr ⟨reference, hreference, hends⟩
  have hearlier : ∀ earlier ∈ before, ∀ other, Builder.ofFunction? earlier = some other →
      other.produces enum.name variant.name = false := by
    intro earlier hmem other hother
    rw [← Bool.not_eq_true, Builder.produces_iff henumColon hvariantColon]
    rintro ⟨text, htext, hends'⟩
    exact hfirst earlier hmem other text hother htext hends'
  have hroles := accounts?_first hfunctions hbuilder hproduces hearlier
  have hinstructions : (Analysis.ofFile file).instructions =
      enum.variants.map (Assembly.variantInstruction
        (Catalog.ofStructs (Analysis.structDefs file))
        (file.functions.filterMap Builder.ofFunction?) enum.name) := by
    simp only [Analysis.ofFile, Assembly.instructions, hselect]
  rw [hinstructions]
  refine ⟨⟨_, List.mem_map_of_mem hvariant, rfl, rfl⟩, ?_⟩
  rintro instruction hmem hsame
  obtain ⟨other, -, rfl⟩ := List.mem_map.mp hmem
  have hother : other.name = variant.name := hsame
  simp only [Assembly.variantInstruction, hother]
  rw [hroles, haccounts]

/-- A path of names without generic arguments. -/
def plainPath (names : List String) : Path :=
  ⟨names.map fun name => ⟨⟨name⟩, .none⟩⟩

/-- A payer that signs, and a clock that is only read. -/
def paySpecs : List AccountSpec :=
  [⟨"payer", true, true, some .dereference, false, "Parenthesis", false⟩,
    ⟨"clock", false, false, none, true, "Parenthesis", true⟩]

/-- The statement
`return Ok(Instruction::new_with_bytes(id, &Op::Pay(amount).pack()?, vec![..]));` -/
def payStmt : Stmt :=
  .semi (.ret (some (.call (.path (plainPath ["Ok"]))
    [.call (.path (plainPath ["Instruction", "new_with_bytes"]))
      [.path (plainPath ["id"]),
        .reference (.question (.methodCall
          (.call (.path (plainPath ["Op", "Pay"])) [.path (plainPath ["amount"])]) ⟨"pack"⟩ [])),
        .macroCall ⟨plainPath ["vec"], AccountSpec.vector true paySpecs⟩]])))

/-- A function that builds `Op::Close`. -/
def closeFunction : FunctionItem :=
  ⟨.everywhere, ⟨⟨"close"⟩, []⟩,
    ⟨[.binding (.ident ⟨"data"⟩) (some (.path (plainPath ["Op", "Close"])))]⟩⟩

/-- A file with an enum of two variants and a builder for each. -/
def payFile : File :=
  ⟨[.function closeFunction, .function ⟨.everywhere, ⟨⟨"pay"⟩, []⟩, ⟨[payStmt]⟩⟩,
    .enum ⟨.everywhere, ⟨"Op"⟩, [.variant ⟨"Close"⟩ .unit, .variant ⟨"Pay"⟩ .unit]⟩]⟩

theorem assembles_payStmt : Assembles (plainPath ["Op", "Pay"]) paySpecs [payStmt] := by
  have hunbound : ∀ name, Unbound name [payStmt] := by
    intro name pat init hmem
    simp [payStmt] at hmem
  have hmaker : (plainPath ["Instruction", "new_with_bytes"]).idents =
      ["Instruction"] ++ ["new_with_" ++ "bytes"] := by decide
  have hok : (plainPath ["Ok"]).idents = [] ++ ["Ok"] := rfl
  have hvec : (plainPath ["vec"]).idents = [] ++ ["vec"] := rfl
  have hnames : NamesInstruction (plainPath ["Instruction", "new_with_bytes"]) :=
    ⟨"Instruction", by decide, "", "", rfl⟩
  exact .construction (hunbound _) (hunbound _)
    ⟨[], payStmt, [], _, _, rfl, rfl, .ok .bare hok .bare (.ret .bare .bare),
      .call .bare hnames hmaker, rfl⟩
    (.serialized (.call _ .bare) .bare (by decide) (by decide) (.reference (.question .bare)))
    (.intro true hvec .bare)

theorem accounts_of_pay :
    selectEnum (payFile.enums.filterMap EnumDef.ofItem?) =
        some (⟨"Op", true, [⟨0, "Close", none, none⟩, ⟨1, "Pay", none, none⟩]⟩, .sole) ∧
      ∀ instruction ∈ (Analysis.ofFile payFile).instructions, instruction.name = "Pay" →
        instruction.accounts = some [⟨some "payer", true, true⟩, ⟨some "clock", false, false⟩] := by
  have hselect : selectEnum (payFile.enums.filterMap EnumDef.ofItem?) =
      some (⟨"Op", true, [⟨0, "Close", none, none⟩, ⟨1, "Pay", none, none⟩]⟩, .sole) := by decide
  have hclose : (Builder.ofFunction? closeFunction).map
      (fun builder => builder.produces "Op" "Pay") = some false := by decide +kernel
  have hfirst : ∀ earlier ∈ [closeFunction], ∀ builder reference,
      Builder.ofFunction? earlier = some builder → builder.reference = some reference →
        ¬ EndsIn "Op" "Pay" reference := by
    intro earlier hearlier builder reference hbuilder hreference hends
    rw [List.mem_singleton.mp hearlier] at hbuilder
    rw [hbuilder, Option.map_some, Option.some.injEq] at hclose
    have hproduces : builder.produces "Op" "Pay" = true :=
      (Builder.produces_iff (by decide) (by decide)).mpr ⟨reference, hreference, hends⟩
    rw [hclose] at hproduces
    cases hproduces
  have hpath : (plainPath ["Op", "Pay"]).idents = [] ++ ["Op", "Pay"] := rfl
  have hvariant : (⟨1, "Pay", none, none⟩ : EnumVariant) ∈
      [(⟨0, "Close", none, none⟩ : EnumVariant), ⟨1, "Pay", none, none⟩] := by decide
  have hfunctions : payFile.functions =
      [closeFunction] ++ ⟨.everywhere, ⟨⟨"pay"⟩, []⟩, ⟨[payStmt]⟩⟩ :: [] := rfl
  have hrecovered := accounts_of_first_builder hselect hvariant (by decide) (by decide) hfunctions
    (by decide) hfirst hpath assembles_payStmt
  exact ⟨hselect, hrecovered.2⟩

end AbiRecovery
