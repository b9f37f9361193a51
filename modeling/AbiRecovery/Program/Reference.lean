import AbiRecovery.Text.Segments
import AbiRecovery.Tree.Query

/-!
# References to serialized values

The data of an instruction is a serialized value, such as `Op::Close.pack()?` or `Op::Close`. The
path of that value is the reference of the data. Operators and methods that only take a value out of
a result do not count.
-/

namespace AbiRecovery.Reference

open AbiRecovery.Tree

/-- Whether a method takes the value out of a result. -/
def isUnwrap (method : Ident) : Bool :=
  method.name? = some "unwrap" || method.name? = some "expect"

/-- An expression without what takes its value out of a result, and without parentheses, borrows and
unary operators in between. -/
def unwrapped : Expr → Expr
  | .paren expr => unwrapped expr
  | .reference expr => unwrapped expr
  | .unary expr => unwrapped expr
  | .question expr => unwrapped expr
  | .methodCall receiver method args =>
    if isUnwrap method then unwrapped receiver else .methodCall receiver method args
  | expr => expr

/-- The path of a value: of the function that is called, of a path, or of a struct literal. -/
def ofValue? (expr : Expr) : Option String :=
  match expr.peel with
  | .call func _ => func.path?.bind Path.joined?
  | .path path => path.joined?
  | .struct path _ => path.joined?
  | _ => none

/-- The path of the value that a method, such as a serializer, is called on. -/
def ofReceiver? (expr : Expr) : Option String :=
  match unwrapped expr with
  | .methodCall receiver _ _ => ofValue? receiver
  | _ => none

/-- The path that an expression refers to by itself. -/
def direct? (expr : Expr) : Option String :=
  (ofReceiver? expr).or (ofValue? expr)

/-- Whether a reference has more than one name. -/
def isQualified (reference : String) : Bool :=
  Text.hasInfix "::" reference

end AbiRecovery.Reference
