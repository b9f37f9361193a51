import AbiRecovery.Text.Uppercase
import AbiRecovery.Tree.Node

/-!
# Questions to the tree

Names of a path, and what stands behind parentheses, borrows and unary operators.
-/

namespace AbiRecovery.Tree

/-- Whether a name starts with an upper-case letter, as the names of types do. -/
def isTypeLike (name : String) : Bool :=
  match name.toList with
  | first :: _ => Text.isUppercase first
  | [] => false

namespace Path

/-- The names of a path, without the segments that could not be read. -/
def idents (path : Path) : List String :=
  path.segments.filterMap fun segment => segment.ident.name?

/-- The last name of a path. -/
def leaf? (path : Path) : Option String :=
  path.idents.getLast?

/-- The path as it is written, unless no segment could be read. -/
def joined? (path : Path) : Option String :=
  if path.idents = [] then none else some ("::".intercalate path.idents)

/-- The last name of a path that looks like the name of a type. -/
def typeName? (path : Path) : Option String :=
  (path.idents.filter isTypeLike).getLast?

end Path

/-- The text of an integer literal. -/
def Lit.intText? : Lit → Option String
  | int text => if text = "" then none else some text
  | _ => none

/-- The name that a pattern binds, looking through a type. -/
def Pat.bindingName? : Pat → Option String
  | .ident name => name.name?
  | .typed pat _ => pat.bindingName?
  | _ => none

namespace Expr

/-- An expression without parentheses, borrows and unary operators around it. -/
def peel : Expr → Expr
  | paren expr => expr.peel
  | reference expr => expr.peel
  | unary expr => expr.peel
  | expr => expr

/-- The path that an expression is. -/
def path? (expr : Expr) : Option Path :=
  match expr.peel with
  | .path found => some found
  | _ => none

/-- Whether an expression is the function `Ok`. -/
def isOk (func : Expr) : Bool :=
  match func.path? with
  | some found => found.leaf? = some "Ok"
  | none => false

/-- An expression without the `return` around it. -/
def returned : Expr → Expr
  | ret (some expr) => expr
  | expr => expr

/-- An expression without the operator `?` after it. -/
def unquestioned : Expr → Expr
  | question expr => expr
  | expr => expr

end Expr

/-- The value that a struct literal gives to a field. -/
def fieldValue? (name : String) (fields : List FieldValue) : Option Expr :=
  (fields.find? fun field => field.member.name? = some name).map (·.expr)

/-- The expression of a statement, the initial value of a binding included. -/
def Stmt.expr? : Stmt → Option Expr
  | .binding _ init => init
  | .expr value => some value
  | .semi value => some value
  | .other => none

end AbiRecovery.Tree
