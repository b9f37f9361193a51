import AbiRecovery.Proofs.Program.BuilderRecovery
import Mathlib.Data.List.Induction
import Mathlib.Logic.Function.Basic

/-!
# Names that stand for other names

Statements are gone through in order and each `let` sets the initial value of its name (`declare`),
so at every point of a body a name has the value of its latest binding up to there (`visibleAfter`).
A name without a value of its own there stands for itself, any other one for what its value refers
to (`aliased`).

The scope of a function is what is visible at the end of its body
(`Scope.initializer?_eq_visibleAfter`), and it is also asked about names that are used earlier.
Whether this makes a difference for the data of an instruction is a matter of the statements from
the binding of the data on: they change what is visible only for the names that they bind
(`visibleAfter_append_of_unbound`), and for these names nothing before them counts
(`visibleAfter_append_of_bound`).
-/

namespace AbiRecovery

open AbiRecovery.Tree

/-! ### What is visible -/

/-- A statement gives the name that it binds its initial value. -/
def declare (visible : String → Option Expr) : Stmt → String → Option Expr
  | .binding pat init =>
    match pat.bindingName? with
    | some name => Function.update visible name init
    | none => visible
  | _ => visible

/-- The initial values of the names after statements. -/
def visibleAfter (stmts : List Stmt) : String → Option Expr :=
  stmts.foldl declare fun _ => none

/-- What a name stands for: for what its initial value refers to, or else for itself. -/
def aliased (visible : String → Option Expr) (name : String) : String :=
  ((visible name).bind Reference.direct?).getD name

theorem declare_binding {pat : Pat} {bound : String} (h : pat.bindingName? = some bound)
    (visible : String → Option Expr) (init : Option Expr) :
    declare visible (.binding pat init) = Function.update visible bound init := by
  simp only [declare, h]

theorem unbound_nil (name : String) : Unbound name [] := by
  intro pat init hmem
  cases hmem

theorem unbound_append_iff {name : String} {front back : List Stmt} :
    Unbound name (front ++ back) ↔ Unbound name front ∧ Unbound name back := by
  unfold Unbound
  simp only [List.mem_append, or_imp, forall_and]

theorem not_unbound_singleton_iff {name : String} {stmt : Stmt} :
    ¬ Unbound name [stmt] ↔
      ∃ pat init, stmt = .binding pat init ∧ pat.bindingName? = some name := by
  unfold Unbound
  simp only [List.mem_singleton, not_forall, not_not]
  constructor
  · rintro ⟨pat, init, heq, hbound⟩
    exact ⟨pat, init, heq.symm, hbound⟩
  · rintro ⟨pat, init, heq, hbound⟩
    exact ⟨pat, init, heq.symm, hbound⟩

theorem declare_of_unbound {name : String} {stmt : Stmt} (h : Unbound name [stmt])
    (visible : String → Option Expr) : declare visible stmt name = visible name := by
  cases stmt with
  | binding pat init =>
    have hne := h pat init (List.mem_singleton.mpr rfl)
    cases hbound : pat.bindingName? with
    | none => simp only [declare, hbound]
    | some bound =>
      have hname : name ≠ bound := by
        rintro rfl
        exact hne hbound
      rw [declare_binding hbound, Function.update_of_ne hname]
  | expr | semi | other => rfl

/-- **One step**: for the name that a statement binds, nothing before it counts. -/
theorem declare_of_bound {name : String} {stmt : Stmt} (h : ¬ Unbound name [stmt])
    (visible visible' : String → Option Expr) :
    declare visible stmt name = declare visible' stmt name := by
  obtain ⟨pat, init, rfl, hbound⟩ := not_unbound_singleton_iff.mp h
  rw [declare_binding hbound, declare_binding hbound, Function.update_self, Function.update_self]

theorem foldl_declare_of_unbound {name : String} {stmts : List Stmt} (h : Unbound name stmts)
    (visible : String → Option Expr) : stmts.foldl declare visible name = visible name := by
  induction stmts generalizing visible with
  | nil => rfl
  | cons stmt stmts ih =>
    rw [← List.singleton_append] at h
    obtain ⟨hstmt, hstmts⟩ := unbound_append_iff.mp h
    rw [List.foldl_cons, ih hstmts, declare_of_unbound hstmt]

/-- After a **run** of statements that bind a name, nothing before them counts for it. -/
theorem foldl_declare_of_bound {name : String} {stmts : List Stmt} (h : ¬ Unbound name stmts)
    (visible visible' : String → Option Expr) :
    stmts.foldl declare visible name = stmts.foldl declare visible' name := by
  induction stmts generalizing visible visible' with
  | nil => exact absurd (unbound_nil name) h
  | cons stmt stmts ih =>
    rw [List.foldl_cons, List.foldl_cons]
    by_cases hstmts : Unbound name stmts
    · -- The first statement is the last one that binds the name.
      have hstmt : ¬ Unbound name [stmt] := fun hstmt => h (unbound_append_iff.mpr ⟨hstmt, hstmts⟩)
      rw [foldl_declare_of_unbound hstmts, foldl_declare_of_unbound hstmts]
      exact declare_of_bound hstmt visible visible'
    · exact ih hstmts _ _

theorem visibleAfter_of_unbound {name : String} {stmts : List Stmt} (h : Unbound name stmts) :
    visibleAfter stmts name = none :=
  foldl_declare_of_unbound h _

theorem visibleAfter_append_of_unbound {name : String} {stmts : List Stmt}
    (h : Unbound name stmts) (before : List Stmt) :
    visibleAfter (before ++ stmts) name = visibleAfter before name := by
  unfold visibleAfter
  rw [List.foldl_append, foldl_declare_of_unbound h]

theorem visibleAfter_append_of_bound {name : String} {stmts : List Stmt}
    (h : ¬ Unbound name stmts) (before : List Stmt) :
    visibleAfter (before ++ stmts) name = visibleAfter stmts name := by
  unfold visibleAfter
  rw [List.foldl_append]
  exact foldl_declare_of_bound h _ _

/-! ### Functions -/

theorem find?_bindings (stmts : List Stmt) (name : String) :
    ((stmts.filterMap Binding.ofStmt?).reverse.find? fun binding => binding.name = name).bind
      Binding.init? = visibleAfter stmts name := by
  induction stmts using List.reverseRecOn with
  | nil => rfl
  | append_singleton stmts stmt ih =>
    by_cases hstmt : Unbound name [stmt]
    · rw [visibleAfter_append_of_unbound hstmt, List.filterMap_append, List.reverse_append,
        List.find?_append, hstmt.find?_eq, Option.none_or, ih]
    · rw [visibleAfter_append_of_bound hstmt, List.filterMap_append, List.reverse_append,
        List.find?_append]
      obtain ⟨pat, init, rfl, hbound⟩ := not_unbound_singleton_iff.mp hstmt
      have hof : Binding.ofStmt? (.binding pat init) = some (.localVar name init) := by
        rw [Binding.ofStmt?, hbound, Option.map_some]
      have hvisible : visibleAfter [.binding pat init] name = init := by
        unfold visibleAfter
        rw [List.foldl_cons, List.foldl_nil, declare_binding hbound, Function.update_self]
      rw [hvisible, List.filterMap_cons_some hof, List.filterMap_nil, List.reverse_singleton,
        List.find?_cons_of_pos (by simp [Binding.name]), Option.some_or]
      rfl

/-- **The scope of a function** is what is visible at the end of its body. -/
theorem Scope.initializer?_eq_visibleAfter (item : FunctionItem) (name : String) :
    (Scope.ofFunction item).initializer? name = visibleAfter item.block.stmts name := by
  rw [Scope.initializer?_ofFunction, find?_bindings]

theorem Scope.reference?_eq (item : FunctionItem) (expr : Expr) :
    (Scope.ofFunction item).reference? expr = (Reference.direct? expr).map fun reference =>
      if Reference.isQualified reference then reference
      else aliased (visibleAfter item.block.stmts) reference := by
  unfold Scope.reference? aliased
  simp only [Scope.initializer?_eq_visibleAfter]

theorem Builder.ofFunction?_of_named {item : FunctionItem}
    (h : item.signature.ident.text ≠ "") :
    ∃ builder, Builder.ofFunction? item = some builder ∧
      builder.reference = Builder.reference? (Scope.ofFunction item)
        ((Construction.ofStmts? item.block.stmts).getD { }) ∧
      builder.accounts = Builder.accounts? (Scope.ofFunction item)
        ((Construction.ofStmts? item.block.stmts).getD { }) := by
  have hident : item.signature.ident.name? = some item.signature.ident.text := if_neg h
  unfold Builder.ofFunction?
  rw [hident, Option.map_some]
  exact ⟨_, rfl, rfl, rfl⟩

/-- **What the data refers to** if it is bound to a bare name: to what the name stands for at the
end of the body, not where the data is bound. So a binding of the data to its own earlier value
hides that value, a name that is bound again later stands for its later value, and any other name
stands for what it stands for before the data is bound. -/
theorem reference_of_aliased_data {item : FunctionItem} {before after : List Stmt} {pat : Pat}
    {value : Expr} {name : String} (hname : item.signature.ident.text ≠ "")
    (hstmts : item.block.stmts = before ++ .binding pat (some value) :: after)
    (hpat : pat.bindingName? = some "data") (hlast : Unbound "data" after)
    (hdirect : Reference.direct? value = some name)
    (hbare : Reference.isQualified name = false) :
    ∃ builder, Builder.ofFunction? item = some builder ∧
      (name = "data" → builder.reference = some "data") ∧
      (name ≠ "data" → Unbound name after →
        builder.reference = some (aliased (visibleAfter before) name)) ∧
      (name ≠ "data" → ¬ Unbound name after →
        builder.reference = some (aliased (visibleAfter after) name)) := by
  have hdata : (Scope.ofFunction item).initializer? "data" = some value :=
    LastBinding.initializer?_eq ⟨before, pat, after, hstmts, hpat, hlast⟩
  obtain ⟨builder, hbuilder, hreference, -⟩ := Builder.ofFunction?_of_named hname
  have hfinal : builder.reference = some (aliased (visibleAfter item.block.stmts) name) := by
    rw [hreference, Builder.reference?, hdata]
    simp only
    rw [Scope.reference?_eq, hdirect, Option.map_some, hbare]
    rfl
  refine ⟨builder, hbuilder, ?_⟩
  rw [hfinal]
  refine ⟨?_, ?_, ?_⟩
  · rintro rfl
    -- The binding that is found is the one that is being read.
    rw [aliased, ← Scope.initializer?_eq_visibleAfter, hdata, Option.bind_some, hdirect,
      Option.getD_some]
  · intro hne hafter
    have hstmt : Unbound name [.binding pat (some value)] := by
      intro pat' init hmem heq
      cases List.mem_singleton.mp hmem
      rw [hpat] at heq
      exact hne (Option.some.inj heq).symm
    have hrest : Unbound name (.binding pat (some value) :: after) :=
      unbound_append_iff.mpr ⟨hstmt, hafter⟩
    rw [aliased, hstmts, visibleAfter_append_of_unbound hrest]
    rfl
  · intro hne hafter
    have hsplit : item.block.stmts = (before ++ [.binding pat (some value)]) ++ after := by
      rw [hstmts, List.append_assoc]
      rfl
    rw [aliased, hsplit, visibleAfter_append_of_bound hafter]
    rfl

/-- The statement `let name = value;`. -/
def letStmt (name : String) (value : Expr) : Stmt :=
  .binding (.ident ⟨name⟩) (some value)

theorem unbound_letStmt {name bound : String} (h : bound ≠ name) (value : Expr) :
    Unbound name [letStmt bound value] := by
  intro pat init hmem heq
  cases List.mem_singleton.mp hmem
  have hbound : (Ident.mk bound).name? = some name := heq
  rw [Ident.name?, Option.ite_none_left_eq_some] at hbound
  exact h (Option.some.inj hbound.2)

/-- The expression `Op::Close`. -/
def closeOp : Expr :=
  .path (plainPath ["Op", "Close"])

/-- The expression `name.pack()?`. -/
def packed (name : String) : Expr :=
  .question (.methodCall (.path (plainPath [name])) ⟨"pack"⟩ [])

/-- The function `close` with the given statements. -/
def closeWith (stmts : List Stmt) : FunctionItem :=
  ⟨.everywhere, ⟨⟨"close"⟩, []⟩, ⟨stmts⟩⟩

/-- A function with `let op = Op::Close; let data = op.pack()?; let fee = data;`. -/
def closeAliased : FunctionItem :=
  closeWith ([letStmt "op" closeOp] ++ letStmt "data" (packed "op") ::
    [letStmt "fee" (.path (plainPath ["data"]))])

theorem reference_of_closeAliased :
    Reference.direct? (packed "op") = some "op" ∧ Reference.isQualified "op" = false ∧
      (Builder.ofFunction? closeAliased).bind Builder.reference = some "Op::Close" := by
  have hstmts : closeAliased.block.stmts = [letStmt "op" closeOp] ++
      letStmt "data" (packed "op") :: [letStmt "fee" (.path (plainPath ["data"]))] := rfl
  have hdirect : Reference.direct? (packed "op") = some "op" := rfl
  have hbare : Reference.isQualified "op" = false := by decide
  obtain ⟨builder, hbuilder, -, hkept, -⟩ :=
    reference_of_aliased_data (by decide) hstmts rfl (unbound_letStmt (by decide) _) hdirect hbare
  have hreference := hkept (by decide) (unbound_letStmt (by decide) _)
  refine ⟨hdirect, hbare, ?_⟩
  rw [hbuilder, Option.bind_some, hreference]
  rfl

/-- If the data of a function is bound to a bare name, it refers to what the name stands for where
the data is bound. -/
def DataScoped (item : FunctionItem) : Prop :=
  ∀ before pat value after name, item.block.stmts = before ++ .binding pat (some value) :: after →
    pat.bindingName? = some "data" → Unbound "data" after → Reference.direct? value = some name →
      Reference.isQualified name = false → (Builder.ofFunction? item).bind Builder.reference =
        some (aliased (visibleAfter before) name)

/-- Neither `let data = Op::Close; let data = data.pack()?;` nor
`let op = Op::Close; let data = op.pack()?; let op = Op::Open;` is read as `Op::Close`. -/
theorem later_binding_hides_close :
    ¬ DataScoped (closeWith [letStmt "data" closeOp, letStmt "data" (packed "data")]) ∧
      ¬ DataScoped (closeWith [letStmt "op" closeOp, letStmt "data" (packed "op"),
        letStmt "op" (.path (plainPath ["Op", "Open"]))]) := by
  constructor
  · intro h
    have hscoped := h [letStmt "data" closeOp] _ _ [] "data" rfl rfl (unbound_nil _) rfl (by decide)
    exact absurd hscoped (by decide)
  · intro h
    have hscoped := h [letStmt "op" closeOp] _ _ _ "op" rfl rfl
      (unbound_letStmt (by decide) (.path (plainPath ["Op", "Open"]))) rfl (by decide)
    exact absurd hscoped (by decide)

end AbiRecovery
