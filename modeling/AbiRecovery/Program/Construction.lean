import AbiRecovery.Program.EnumDef
import AbiRecovery.Tree.Query

/-!
# Where an instruction is put together

An instruction is made by a literal `Instruction { data, accounts, .. }` or by a call
`Instruction::new_with_..(program, data, accounts)`, possibly inside `Ok(..)` and behind `return`.
-/

namespace AbiRecovery

open AbiRecovery.Tree

/-- The data and the accounts that an instruction is given. -/
structure Construction where
  data : Option Expr := none
  accounts : Option Expr := none

namespace Construction

/-- Whether one of the names of a path is that of an instruction type. -/
def namesInstruction (path : Path) : Bool :=
  path.idents.any (Text.hasInfix instructionHint)

/-- Whether the last name of a path is that of a function that makes an instruction. -/
def isMaker (path : Path) : Bool :=
  match path.leaf? with
  | some leaf => "new_with_".toList.isPrefixOf leaf.toList
  | none => false

/-- The value of a statement, without `return` and `Ok` around it. -/
def statementValue? (stmt : Stmt) : Option Expr :=
  match stmt.expr?.map fun (expr : Expr) => expr.peel.returned.peel with
  | some (.call func args) => if func.isOk then args.head?.map Expr.peel else some (.call func args)
  | value => value

/-- What an expression gives to the instruction that it makes. -/
def ofExpr? : Expr → Option Construction
  | .struct path fields =>
    if namesInstruction path then
      some ⟨fieldValue? "data" fields, fieldValue? "accounts" fields⟩
    else none
  | .call func args =>
    match func.path? with
    | some path =>
      if namesInstruction path && isMaker path then some ⟨args[1]?, args[2]?⟩ else none
    | none => none
  | _ => none

/-- The last construction of an instruction among statements. -/
def ofStmts? (stmts : List Stmt) : Option Construction :=
  stmts.reverse.findSome? fun stmt => (statementValue? stmt).bind ofExpr?

end Construction

end AbiRecovery
