import AbiRecovery.Program.AccountRole
import AbiRecovery.Program.EnumDef
import AbiRecovery.Program.Reference

/-!
# Names in a function

The parameters and the local variables of a function. Where a name is bound more than once, the
latest binding counts.
-/

namespace AbiRecovery

open AbiRecovery.Tree

/-- A name that is visible in the body of a function. -/
inductive Binding where
  | parameter (name : String) (type : TypePath)
  | localVar (name : String) (init : Option Expr)

namespace Binding

/-- The bound name. -/
def name : Binding → String
  | parameter name _ => name
  | localVar name _ => name

/-- The initial value of a local variable. -/
def init? : Binding → Option Expr
  | parameter _ _ => none
  | localVar _ init => init

/-- A parameter with its type. -/
def parameter? : Binding → Option InlineField
  | parameter name type => some ⟨name, type⟩
  | localVar _ _ => none

/-- The binding of a parameter with a name. -/
def ofParam? : Param → Option Binding
  | .typed pat type => pat.bindingName?.map fun name => parameter name (TypePath.ofType type)
  | _ => none

/-- The binding of a statement that declares a variable with a name. -/
def ofStmt? : Stmt → Option Binding
  | .binding pat init => pat.bindingName?.map fun name => localVar name init
  | _ => none

end Binding

/-- The parameters and then the local variables of a function, in order. -/
structure Scope where
  bindings : List Binding

namespace Scope

/-- The names in a function. -/
def ofFunction (item : FunctionItem) : Scope :=
  ⟨item.signature.inputs.filterMap Binding.ofParam? ++ item.block.stmts.filterMap Binding.ofStmt?⟩

/-- The initial value of the latest binding of a name. -/
def initializer? (scope : Scope) (name : String) : Option Expr :=
  (scope.bindings.reverse.find? fun binding => binding.name = name).bind Binding.init?

/-- The reference of an expression. A single name that is a local variable stands for what its
initial value refers to. -/
def reference? (scope : Scope) (expr : Expr) : Option String :=
  (Reference.direct? expr).map fun reference =>
    if Reference.isQualified reference then reference
    else ((scope.initializer? reference).bind Reference.direct?).getD reference

/-- The roles of an account vector. -/
def vectorRoles? (expr : Expr) : Option (List AccountRole) :=
  match expr.peel with
  | .macroCall call =>
    if call.path.leaf? = some "vec" then some (AccountRole.ofStream call.tokens) else none
  | _ => none

/-- The roles of an account vector, or of a local variable that holds one. -/
def roles? (scope : Scope) (expr : Expr) : Option (List AccountRole) :=
  (vectorRoles? expr).or
    ((expr.path?.bind Path.leaf?).bind fun name => (scope.initializer? name).bind vectorRoles?)

/-- The parameters with their types. -/
def parameters (scope : Scope) : List InlineField :=
  scope.bindings.filterMap Binding.parameter?

end Scope

end AbiRecovery
