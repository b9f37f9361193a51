import AbiRecovery.Program.Construction
import AbiRecovery.Program.Scope

/-!
# Functions that build instructions

A function that builds an instruction serializes the instruction's data and lists its accounts,
either in local variables or directly where the instruction is put together:

    let data = Op::Transfer(args).pack()?;
    let accounts = vec![AccountMeta::new(*from, true)];
    Ok(Instruction { program_id, accounts, data })

`Builder.ofFunction?` follows the variables `data` and `accounts`, or else what the instruction is
given, to the reference of the data and to the roles of the accounts.
-/

namespace AbiRecovery

open Json AbiRecovery.Tree

/-- What is known of a function that builds an instruction. -/
structure Builder where
  name : String
  /-- The path of the value that is serialized. -/
  reference : Option String
  accounts : Option (List AccountRole)
  parameters : List InlineField
deriving DecidableEq

namespace Builder

/-- The reference of the data: of the variable `data`, or else of the data that the instruction is
given. -/
def reference? (scope : Scope) (construction : Construction) : Option String :=
  match scope.initializer? "data" with
  | some init => scope.reference? init
  | none => construction.data.bind scope.reference?

/-- The roles of the accounts: of the variable `accounts` if it holds a vector, or else of the
accounts that the instruction is given. -/
def accounts? (scope : Scope) (construction : Construction) : Option (List AccountRole) :=
  ((scope.initializer? "accounts").bind Scope.vectorRoles?).or
    (construction.accounts.bind scope.roles?)

/-- What is known of a function that has a name. -/
def ofFunction? (item : FunctionItem) : Option Builder :=
  item.signature.ident.name?.map fun name =>
    let scope := Scope.ofFunction item
    let construction := (Construction.ofStmts? item.block.stmts).getD { }
    { name := name
      reference := reference? scope construction
      accounts := accounts? scope construction
      parameters := scope.parameters }

/-- Whether a builder's reference ends with the given enum and variant. -/
def produces (builder : Builder) (enumName variantName : String) : Bool :=
  match builder.reference.map Text.segmentsFromEnd with
  | some (last :: before :: _) => last = variantName && before = enumName
  | _ => false

/-- Whether a builder's reference ends with the given name. -/
def producesLeaf (builder : Builder) (name : String) : Bool :=
  match builder.reference.map Text.segmentsFromEnd with
  | some (last :: _) => last = name
  | _ => false

/-- The JSON value of a builder. -/
def toJson (builder : Builder) : Json :=
  .obj
    ([("name", .str builder.name)] ++
      optionalMember "producesInstructionRef" (builder.reference.map .str) ++
      optionalMember "accounts"
        (builder.accounts.map fun roles => .arr (roles.map AccountRole.toJson)) ++
      optionalMember "parameters"
        (if builder.parameters = [] then none
          else some (.arr (builder.parameters.map InlineField.toJson))))

end Builder

end AbiRecovery
