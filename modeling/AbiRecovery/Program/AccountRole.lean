import AbiRecovery.Json.Field
import AbiRecovery.Json.Shape
import AbiRecovery.Program.Lexeme

/-!
# Account roles

The accounts of an instruction are written as `vec![AccountMeta::new(key, true), ...]`. Each element
is one role: `new` makes the account writable, `new_readonly` does not, and the last argument says
whether it signs. An element that is not such a call is still a role, so that the others keep their
places.
-/

namespace AbiRecovery

open Json AbiRecovery.Tree

/-- The part that an account plays in an instruction. -/
structure AccountRole where
  /-- The variable that holds the key, if the key is one. -/
  name : Option String
  isWritable : Bool
  isSigner : Bool
deriving DecidableEq

/-- An account as an instruction refers to it. -/
structure AccountMeta where
  key : List UInt8
  isSigner : Bool
  isWritable : Bool
deriving DecidableEq

namespace AccountRole

/-- The role of the account with a given key. -/
def withKey (role : AccountRole) (key : List UInt8) : AccountMeta :=
  ⟨key, role.isSigner, role.isWritable⟩

/-- The JSON value of a role. -/
def toJson (role : AccountRole) : Json :=
  .obj
    (optionalMember "name" (role.name.map .str) ++
      [("isWritable", .bool role.isWritable), ("isSigner", .bool role.isSigner)])

/-- The shape of a role. -/
def shape : Shape :=
  .record "AccountRole"
    [("name", .omissible, .optional .text), ("isWritable", .required, .flag),
      ("isSigner", .required, .flag)]

/-- The role that a value of the shape stands for. -/
def ofJson (value : Json) : AccountRole :=
  { name := (value.field "name").toText?
    isWritable := (value.field "isWritable").toFlag
    isSigner := (value.field "isSigner").toFlag }

/-- Reads a role from a text. -/
def ofText (content : String) : Except Fault AccountRole :=
  (shape.readText content).map ofJson

end AccountRole

/-! ### The role of an element -/

namespace AccountRole

/-- The arguments of a role without the operator in front of the key. -/
def keyTokens : List Lexeme → List Lexeme
  | .punct "*" :: rest => rest
  | .punct "&" :: rest => rest
  | args => args

/-- The key among the arguments of a role: a name that is all of the key, or that a field access or
the next argument follows. -/
def keyName? (args : List Lexeme) : Option String :=
  match keyTokens args with
  | [.ident name] => some name
  | .ident name :: .punct "," :: _ => some name
  | .ident name :: .punct "." :: _ => some name
  | _ => none

/-- The role that a constructor with the given arguments makes. -/
def constructed (isWritable : Bool) (args : List Lexeme) : AccountRole :=
  { name := keyName? args
    isWritable := isWritable
    isSigner :=
      match args.getLast? with
      | some last => last.isTrue
      | none => false }

/-- A role without a key and without rights. -/
def anonymous : AccountRole := ⟨none, false, false⟩

/-- A role that was made elsewhere and is used under a name. -/
def reused (tokens : List Lexeme) : AccountRole :=
  { anonymous with name := tokens.reverse.findSome? Lexeme.ident? }

/-- The role of an element. -/
def ofTokens : List Lexeme → AccountRole
  | .ident "AccountMeta" :: .punct "::" :: .ident "new" :: args => constructed true args
  | .ident "AccountMeta" :: .punct "::" :: .ident "new_readonly" :: args => constructed false args
  | [] => reused []
  | [token] => reused [token]
  | [first, second] => reused [first, second]
  | _ => anonymous

/-- The roles of the elements of a stream. -/
def ofStream (stream : List TokenTree) : List AccountRole :=
  (Lexeme.elements stream).map ofTokens

end AccountRole

end AbiRecovery
