import AbiRecovery.Json.Field
import AbiRecovery.Program.Literal
import AbiRecovery.Tree.Item
import AbiRecovery.Tree.Query

/-!
# Opcodes of a hand-written dispatch

Older programs decode instructions in a method `unpack` that matches on the first byte, as in
`Ok(match tag { 0 => ..., 1 => ... })`. Each arm with an integer literal is an opcode, and the type
that the arm builds is its payload.
-/

namespace AbiRecovery

open Json AbiRecovery.Tree

/-- An opcode of a dispatch: the text of its literal, and the type that is built for it. -/
structure DispatchEntry where
  literal : String
  payload : Option String
deriving DecidableEq

namespace DispatchEntry

/-- The name of the type that an expression builds: of a struct literal, of a path, or of the
function that is called. -/
def builtType? (expr : Expr) : Option String :=
  match expr.peel with
  | .struct path _ => path.typeName?
  | .path path => path.typeName?
  | .call func _ => func.path?.bind Path.typeName?
  | _ => none

/-- The value of an arm: of a block its last statement. -/
def armValue? : Expr → Option Expr
  | .block block => block.stmts.getLast?.bind Stmt.expr?
  | body => some body

/-- The name of the type that an arm builds: of a struct literal or a path, or of the first argument
of a call. -/
def payload? (body : Expr) : Option String :=
  match (armValue? body).map Expr.peel with
  | some (.struct path _) => path.typeName?
  | some (.path path) => path.typeName?
  | some (.call _ args) =>
    (args.head?.map Expr.peel).bind fun argument => builtType? argument.unquestioned
  | _ => none

/-- The text of the integer literal that a pattern is. -/
def literal? : Pat → Option String
  | .lit expr =>
    match expr.peel with
    | .lit lit => lit.intText?
    | _ => none
  | _ => none

/-- The opcode of an arm with an integer literal. -/
def ofArm? (arm : Arm) : Option DispatchEntry :=
  (literal? arm.pat).map fun literal => ⟨literal, payload? arm.body⟩

/-- The number of an opcode. -/
def value? (entry : DispatchEntry) : Option UInt64 :=
  Literal.value? entry.literal

/-- The JSON value of an opcode. -/
def toJson (entry : DispatchEntry) : Json :=
  .obj
    ([("code", .str entry.literal)] ++
      optionalMember "payloadStructName" (entry.payload.map .str))

end DispatchEntry

namespace Dispatch

/-- The arms of a statement `Ok(match ...)`. -/
def arms? (stmt : Stmt) : Option (List Arm) :=
  match stmt.expr?.map Expr.returned with
  | some (.call func args) =>
    if func.isOk then
      match args.head?.map Expr.peel with
      | some (.matchOn _ arms) => some arms
      | _ => none
    else none
  | _ => none

/-- The body of a method `unpack`. -/
def body? : ImplEntry → Option Block
  | .method signature block => if signature.ident.name? = some "unpack" then some block else none
  | .other => none

/-- The opcodes of a block of methods; none if it has no dispatch. -/
def ofImpl? (item : ImplItem) : Option (List DispatchEntry) :=
  (item.entries.findSome? body?).bind fun block =>
    (block.stmts.findSome? arms?).map fun arms => arms.filterMap DispatchEntry.ofArm?

/-- The opcodes of a program: those of the first block of methods that has any. -/
def ofImpls (items : List ImplItem) : List DispatchEntry :=
  (items.findSome? fun item => (ofImpl? item).filter (· ≠ [])).getD []

end Dispatch

end AbiRecovery
