/-!
# Names, types, expressions and patterns

The node families of the syntax tree of a program that stand inside its items. A family with several
variants has a variant `other` for what is not recognised. Each family has a default, which stands
for a node that could not be read.
-/

namespace AbiRecovery.Tree

/-- An identifier. Its text is empty when it could not be read. -/
structure Ident where
  text : String := ""
deriving Inhabited, DecidableEq

/-- The name of an identifier, if it could be read. -/
def Ident.name? (ident : Ident) : Option String :=
  if ident.text = "" then none else some ident.text

/-- Who may use an item. -/
inductive Visibility where
  | everywhere
  | crateWide
  | restricted
  | inherited
  | other
deriving DecidableEq

instance : Inhabited Visibility := ⟨.inherited⟩

/-- Whether an item may be used everywhere. -/
def Visibility.isPublic (visibility : Visibility) : Bool :=
  visibility = .everywhere

/-- A literal, with the text of a number or a string. -/
inductive Lit where
  | int (text : String)
  | str (text : String)
  | bool (value : Bool)
  | other
deriving DecidableEq

instance : Inhabited Lit := ⟨.other⟩

/-- A tree of the tokens that stand between the brackets of a macro call. -/
inductive TokenTree where
  | ident (text : String)
  | punct (op : String)
  | literal (text : String)
  | group (delimiter : String) (stream : List TokenTree)
  | other

instance : Inhabited TokenTree := ⟨.other⟩

mutual

/-- A reference to a type. -/
inductive TypeRef where
  | path (path : Path)
  | array (elem : TypeRef) (len : Expr)
  | reference (elem : TypeRef)
  | paren (elem : TypeRef)
  | other

/-- A path of names, such as `module::Type`. -/
structure Path where
  segments : List PathSegment

/-- One name of a path, with its generic arguments. -/
structure PathSegment where
  ident : Ident
  arguments : PathArguments

/-- The generic arguments of a name. -/
inductive PathArguments where
  | angleBracketed (args : List TypeRef)
  | parenthesized
  | none
  | other

/-- A pattern. -/
inductive Pat where
  | ident (ident : Ident)
  | typed (pat : Pat) (type : TypeRef)
  | lit (expr : Expr)
  | wild
  | other

/-- A field of a struct literal. -/
structure FieldValue where
  member : Ident
  expr : Expr

/-- An arm of a match expression. -/
structure Arm where
  pat : Pat
  body : Expr

/-- A macro call. -/
structure MacroCall where
  path : Path
  tokens : List TokenTree

/-- A block of statements. -/
structure Block where
  stmts : List Stmt

/-- A statement: a `let`, an expression, or an expression with a semicolon. -/
inductive Stmt where
  | binding (pat : Pat) (init : Option Expr)
  | expr (expr : Expr)
  | semi (expr : Expr)
  | other

/-- An expression. `question` is the operator `?`. -/
inductive Expr where
  | call (func : Expr) (args : List Expr)
  | methodCall (receiver : Expr) (method : Ident) (args : List Expr)
  | path (path : Path)
  | struct (path : Path) (fields : List FieldValue)
  | question (expr : Expr)
  | matchOn (expr : Expr) (arms : List Arm)
  | macroCall (call : MacroCall)
  | lit (lit : Lit)
  | reference (expr : Expr)
  | unary (expr : Expr)
  | paren (expr : Expr)
  | block (block : Block)
  | ret (expr : Option Expr)
  | other

end

instance : Inhabited TypeRef := ⟨.other⟩
instance : Inhabited Path := ⟨⟨[]⟩⟩
instance : Inhabited PathArguments := ⟨.none⟩
instance : Inhabited PathSegment := ⟨⟨default, default⟩⟩
instance : Inhabited Pat := ⟨.other⟩
instance : Inhabited Expr := ⟨.other⟩
instance : Inhabited FieldValue := ⟨⟨default, default⟩⟩
instance : Inhabited Arm := ⟨⟨default, default⟩⟩
instance : Inhabited MacroCall := ⟨⟨default, []⟩⟩
instance : Inhabited Block := ⟨⟨[]⟩⟩
instance : Inhabited Stmt := ⟨.other⟩

end AbiRecovery.Tree
