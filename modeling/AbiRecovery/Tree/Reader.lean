import AbiRecovery.Json.Variant
import AbiRecovery.Tree.Item

/-!
# Reading the tree

Each family of nodes has a reader `ofJson?`, and a family with several variants also a `layout`, the
keys of each variant in order. A tag that is not known gives the variant `other`. Inside a node
everything is lenient: a field that is missing or cannot be read is the default of its family, so
damage stays where it is. Only the root of a document can be refused.
-/

namespace AbiRecovery.Tree

open Json

/-- Reads an identifier. -/
def Ident.ofJson? (node : Json) : Option Ident :=
  (node.record? ["to_string"]).map fun fields => ⟨fields.text "to_string"⟩

/-- Visibilities have no fields. -/
def Visibility.layout (_ : String) : List String := []

/-- Reads a visibility. -/
def Visibility.ofJson? (node : Json) : Option Visibility :=
  (node.variant? layout).map fun (tag, _) =>
    match tag with
    | "VisPublic" => .everywhere
    | "VisCrate" => .crateWide
    | "VisRestricted" => .restricted
    | "VisInherited" => .inherited
    | _ => .other

/-- The keys of the variants of a literal. -/
def Lit.layout : String → List String
  | "LitInt" => ["to_string"]
  | "LitStr" => ["to_string"]
  | "LitBool" => ["value"]
  | _ => []

/-- Reads a literal. -/
def Lit.ofJson? (node : Json) : Option Lit :=
  (node.variant? layout).map fun (tag, fields) =>
    match tag with
    | "LitInt" => .int (fields.text "to_string")
    | "LitStr" => .str (fields.text "to_string")
    | "LitBool" => .bool (fields.flag "value")
    | _ => .other

/-- The keys of the variants of a token tree. -/
def TokenTree.layout : String → List String
  | "Ident" => ["to_string"]
  | "Punct" => ["op"]
  | "Literal" => ["to_string"]
  | "Group" => ["delimiter", "stream"]
  | _ => []

/-- Reads a token tree. -/
def TokenTree.ofJson? (node : Json) : Option TokenTree :=
  (node.variant? layout).map fun (tag, fields) =>
    match tag with
    | "Ident" => .ident (fields.text "to_string")
    | "Punct" => .punct (fields.text "op")
    | "Literal" => .literal (fields.text "to_string")
    | "Group" =>
      .group (fields.text "delimiter") (fields.nodes "stream" fun value => ofJson? value.1)
    | _ => .other
termination_by node.depth
decreasing_by exact value.2

/-! ### Types, patterns, statements and expressions -/

/-- The keys of the variants of a type. -/
def TypeRef.layout : String → List String
  | "TypePath" => ["path"]
  | "TypeArray" => ["elem", "len"]
  | "TypeReference" => ["elem"]
  | "TypeParen" => ["elem"]
  | _ => []

/-- The keys of the variants of generic arguments. -/
def PathArguments.layout : String → List String
  | "AngleBracketedGenericArguments" => ["args"]
  | _ => []

/-- The keys of the variants of a pattern. -/
def Pat.layout : String → List String
  | "PatIdent" => ["ident"]
  | "PatType" => ["pat", "ty"]
  | "PatLit" => ["expr"]
  | _ => []

/-- The keys of the variants of a statement. -/
def Stmt.layout : String → List String
  | "Local" => ["pat", "init"]
  | "StmtExpr" => ["expr"]
  | "StmtSemi" => ["expr"]
  | _ => []

/-- The keys of the variants of an expression. -/
def Expr.layout : String → List String
  | "ExprCall" => ["func", "args"]
  | "ExprMethodCall" => ["receiver", "method", "args"]
  | "ExprPath" => ["path"]
  | "ExprStruct" => ["path", "fields"]
  | "ExprTry" => ["expr"]
  | "ExprMatch" => ["expr", "arms"]
  | "ExprMacro" => ["mac"]
  | "ExprLit" => ["lit"]
  | "ExprReference" => ["expr"]
  | "ExprUnary" => ["expr"]
  | "ExprParen" => ["expr"]
  | "ExprBlock" => ["block"]
  | "ExprReturn" => ["expr"]
  | _ => []

mutual

/-- Reads a type. -/
def TypeRef.ofJson? (node : Json) : Option TypeRef :=
  (node.variant? TypeRef.layout).map fun (tag, fields) =>
    match tag with
    | "TypePath" => .path (fields.node "path" fun value => Path.ofJson? value.1)
    | "TypeArray" =>
      .array (fields.node "elem" fun value => TypeRef.ofJson? value.1)
        (fields.node "len" fun value => Expr.ofJson? value.1)
    | "TypeReference" => .reference (fields.node "elem" fun value => TypeRef.ofJson? value.1)
    | "TypeParen" => .paren (fields.node "elem" fun value => TypeRef.ofJson? value.1)
    | _ => .other
termination_by node.depth
decreasing_by all_goals exact value.2

/-- Reads a path. -/
def Path.ofJson? (node : Json) : Option Path :=
  (node.record? ["segments"]).map fun fields =>
    ⟨fields.nodes "segments" fun value => PathSegment.ofJson? value.1⟩
termination_by node.depth
decreasing_by exact value.2

/-- Reads a segment of a path. -/
def PathSegment.ofJson? (node : Json) : Option PathSegment :=
  (node.record? ["ident", "arguments"]).map fun fields =>
    ⟨fields.node "ident" fun value => Ident.ofJson? value.1,
      fields.node "arguments" fun value => PathArguments.ofJson? value.1⟩
termination_by node.depth
decreasing_by exact value.2

/-- Reads generic arguments. -/
def PathArguments.ofJson? (node : Json) : Option PathArguments :=
  (node.variant? PathArguments.layout).map fun (tag, fields) =>
    match tag with
    | "AngleBracketedGenericArguments" =>
      .angleBracketed (fields.nodes "args" fun value => TypeRef.ofJson? value.1)
    | "ParenthesizedGenericArguments" => .parenthesized
    | "None" => .none
    | _ => .other
termination_by node.depth
decreasing_by exact value.2

/-- Reads a pattern. -/
def Pat.ofJson? (node : Json) : Option Pat :=
  (node.variant? Pat.layout).map fun (tag, fields) =>
    match tag with
    | "PatIdent" => .ident (fields.node "ident" fun value => Ident.ofJson? value.1)
    | "PatType" =>
      .typed (fields.node "pat" fun value => Pat.ofJson? value.1)
        (fields.node "ty" fun value => TypeRef.ofJson? value.1)
    | "PatLit" => .lit (fields.node "expr" fun value => Expr.ofJson? value.1)
    | "PatWild" => .wild
    | _ => .other
termination_by node.depth
decreasing_by all_goals exact value.2

/-- Reads a field of a struct literal. -/
def FieldValue.ofJson? (node : Json) : Option FieldValue :=
  (node.record? ["member", "expr"]).map fun fields =>
    ⟨fields.node "member" fun value => Ident.ofJson? value.1,
      fields.node "expr" fun value => Expr.ofJson? value.1⟩
termination_by node.depth
decreasing_by exact value.2

/-- Reads an arm of a match expression. -/
def Arm.ofJson? (node : Json) : Option Arm :=
  (node.record? ["pat", "body"]).map fun fields =>
    ⟨fields.node "pat" fun value => Pat.ofJson? value.1,
      fields.node "body" fun value => Expr.ofJson? value.1⟩
termination_by node.depth
decreasing_by all_goals exact value.2

/-- Reads a macro call. -/
def MacroCall.ofJson? (node : Json) : Option MacroCall :=
  (node.record? ["path", "tokens"]).map fun fields =>
    ⟨fields.node "path" fun value => Path.ofJson? value.1,
      fields.nodes "tokens" fun value => TokenTree.ofJson? value.1⟩
termination_by node.depth
decreasing_by exact value.2

/-- Reads a block. -/
def Block.ofJson? (node : Json) : Option Block :=
  (node.record? ["stmts"]).map fun fields =>
    ⟨fields.nodes "stmts" fun value => Stmt.ofJson? value.1⟩
termination_by node.depth
decreasing_by exact value.2

/-- Reads a statement. -/
def Stmt.ofJson? (node : Json) : Option Stmt :=
  (node.variant? Stmt.layout).map fun (tag, fields) =>
    match tag with
    | "Local" =>
      .binding (fields.node "pat" fun value => Pat.ofJson? value.1)
        (fields.optional "init" fun value => Expr.ofJson? value.1)
    | "StmtExpr" => .expr (fields.node "expr" fun value => Expr.ofJson? value.1)
    | "StmtSemi" => .semi (fields.node "expr" fun value => Expr.ofJson? value.1)
    | _ => .other
termination_by node.depth
decreasing_by all_goals exact value.2

/-- Reads an expression. -/
def Expr.ofJson? (node : Json) : Option Expr :=
  (node.variant? Expr.layout).map fun (tag, fields) =>
    match tag with
    | "ExprCall" =>
      .call (fields.node "func" fun value => Expr.ofJson? value.1)
        (fields.nodes "args" fun value => Expr.ofJson? value.1)
    | "ExprMethodCall" =>
      .methodCall (fields.node "receiver" fun value => Expr.ofJson? value.1)
        (fields.node "method" fun value => Ident.ofJson? value.1)
        (fields.nodes "args" fun value => Expr.ofJson? value.1)
    | "ExprPath" => .path (fields.node "path" fun value => Path.ofJson? value.1)
    | "ExprStruct" =>
      .struct (fields.node "path" fun value => Path.ofJson? value.1)
        (fields.nodes "fields" fun value => FieldValue.ofJson? value.1)
    | "ExprTry" => .question (fields.node "expr" fun value => Expr.ofJson? value.1)
    | "ExprMatch" =>
      .matchOn (fields.node "expr" fun value => Expr.ofJson? value.1)
        (fields.nodes "arms" fun value => Arm.ofJson? value.1)
    | "ExprMacro" => .macroCall (fields.node "mac" fun value => MacroCall.ofJson? value.1)
    | "ExprLit" => .lit (fields.node "lit" fun value => Lit.ofJson? value.1)
    | "ExprReference" => .reference (fields.node "expr" fun value => Expr.ofJson? value.1)
    | "ExprUnary" => .unary (fields.node "expr" fun value => Expr.ofJson? value.1)
    | "ExprParen" => .paren (fields.node "expr" fun value => Expr.ofJson? value.1)
    | "ExprBlock" => .block (fields.node "block" fun value => Block.ofJson? value.1)
    | "ExprReturn" => .ret (fields.optional "expr" fun value => Expr.ofJson? value.1)
    | _ => .other
termination_by node.depth
decreasing_by all_goals exact value.2

end

/-! ### Items -/

/-- The keys of the variants of an import tree. -/
def UseTree.layout : String → List String
  | "UsePath" => ["ident", "tree"]
  | "UseName" => ["ident"]
  | "UseRename" => ["ident", "rename"]
  | "UseGroup" => ["items"]
  | _ => []

/-- Reads an import tree. -/
def UseTree.ofJson? (node : Json) : Option UseTree :=
  (node.variant? layout).map fun (tag, fields) =>
    match tag with
    | "UsePath" =>
      .path (fields.node "ident" fun value => Ident.ofJson? value.1)
        (fields.node "tree" fun value => ofJson? value.1)
    | "UseName" => .name (fields.node "ident" fun value => Ident.ofJson? value.1)
    | "UseRename" =>
      .rename (fields.node "ident" fun value => Ident.ofJson? value.1)
        (fields.node "rename" fun value => Ident.ofJson? value.1)
    | "UseGlob" => .glob
    | "UseGroup" => .group (fields.nodes "items" fun value => ofJson? value.1)
    | _ => .other
termination_by node.depth
decreasing_by all_goals exact value.2

/-- Reads a field of a struct or of an enum variant. -/
def Field.ofJson? (node : Json) : Option Field :=
  (node.record? ["vis", "ident", "ty"]).map fun fields =>
    { visibility := fields.node "vis" fun value => Visibility.ofJson? value.1
      ident := fields.optional "ident" fun value => Ident.ofJson? value.1
      type := fields.node "ty" fun value => TypeRef.ofJson? value.1 }

/-- The keys of the variants of fields. -/
def Fields.layout : String → List String
  | "FieldsNamed" => ["named"]
  | "FieldsUnnamed" => ["unnamed"]
  | _ => []

/-- Reads the fields of a struct or of an enum variant. -/
def Fields.ofJson? (node : Json) : Option Fields :=
  (node.variant? layout).map fun (tag, fields) =>
    match tag with
    | "FieldsNamed" => .named (fields.nodes "named" fun value => Field.ofJson? value.1)
    | "FieldsUnnamed" => .unnamed (fields.nodes "unnamed" fun value => Field.ofJson? value.1)
    | "FieldsUnit" => .unit
    | "Unit" => .unit
    | _ => .other

/-- The keys of the variants of an entry of an enum. -/
def EnumEntry.layout : String → List String
  | "Variant" => ["ident", "fields"]
  | _ => []

/-- Reads an entry of an enum. -/
def EnumEntry.ofJson? (node : Json) : Option EnumEntry :=
  (node.variant? layout).map fun (tag, fields) =>
    match tag with
    | "Variant" =>
      .variant (fields.node "ident" fun value => Ident.ofJson? value.1)
        (fields.node "fields" fun value => Fields.ofJson? value.1)
    | _ => .other

/-- The keys of the variants of a parameter. -/
def Param.layout : String → List String
  | "PatType" => ["pat", "ty"]
  | "Typed" => ["pat", "ty"]
  | _ => []

/-- Reads a parameter. -/
def Param.ofJson? (node : Json) : Option Param :=
  let typed (fields : Members node) : Param :=
    .typed (fields.node "pat" fun value => Pat.ofJson? value.1)
      (fields.node "ty" fun value => TypeRef.ofJson? value.1)
  (node.variant? layout).map fun (tag, fields) =>
    match tag with
    | "PatType" => typed fields
    | "Typed" => typed fields
    | "Receiver" => .receiver
    | _ => .other

/-- Reads the name and the parameters of a function. -/
def Signature.ofJson? (node : Json) : Option Signature :=
  (node.record? ["ident", "inputs"]).map fun fields =>
    { ident := fields.node "ident" fun value => Ident.ofJson? value.1
      inputs := fields.nodes "inputs" fun value => Param.ofJson? value.1 }

/-- The keys of the variants of an entry of a block of methods. -/
def ImplEntry.layout : String → List String
  | "ImplItemMethod" => ["sig", "block"]
  | "ImplItemFn" => ["sig", "block"]
  | _ => []

/-- Reads an entry of a block of methods. -/
def ImplEntry.ofJson? (node : Json) : Option ImplEntry :=
  let method (fields : Members node) : ImplEntry :=
    .method (fields.node "sig" fun value => Signature.ofJson? value.1)
      (fields.node "block" fun value => Block.ofJson? value.1)
  (node.variant? layout).map fun (tag, fields) =>
    match tag with
    | "ImplItemMethod" => method fields
    | "ImplItemFn" => method fields
    | _ => .other

/-- The keys of the variants of an item. -/
def Item.layout : String → List String
  | "ItemUse" => ["tree"]
  | "ItemStruct" => ["vis", "ident", "fields"]
  | "ItemEnum" => ["vis", "ident", "variants"]
  | "ItemImpl" => ["self_ty", "items"]
  | "ItemFn" => ["vis", "sig", "block"]
  | _ => []

/-- Reads an item. -/
def Item.ofJson? (node : Json) : Option Item :=
  (node.variant? layout).map fun (tag, fields) =>
    match tag with
    | "ItemUse" => .use (fields.node "tree" fun value => UseTree.ofJson? value.1)
    | "ItemStruct" =>
      .struct
        { visibility := fields.node "vis" fun value => Visibility.ofJson? value.1
          ident := fields.node "ident" fun value => Ident.ofJson? value.1
          fields := fields.node "fields" fun value => Fields.ofJson? value.1 }
    | "ItemEnum" =>
      .enum
        { visibility := fields.node "vis" fun value => Visibility.ofJson? value.1
          ident := fields.node "ident" fun value => Ident.ofJson? value.1
          entries := fields.nodes "variants" fun value => EnumEntry.ofJson? value.1 }
    | "ItemImpl" =>
      .impl
        { selfType := fields.node "self_ty" fun value => TypeRef.ofJson? value.1
          entries := fields.nodes "items" fun value => ImplEntry.ofJson? value.1 }
    | "ItemFn" =>
      .function
        { visibility := fields.node "vis" fun value => Visibility.ofJson? value.1
          signature := fields.node "sig" fun value => Signature.ofJson? value.1
          block := fields.node "block" fun value => Block.ofJson? value.1 }
    | _ => .other

/-- Reads a source file. -/
def File.ofJson? (node : Json) : Option File :=
  (node.record? ["items"]).map fun fields =>
    ⟨fields.nodes "items" fun value => Item.ofJson? value.1⟩

/-! ### Whole documents -/

/-- The shape of a source file. -/
def File.shape : Shape :=
  .record "File" [("items", .defaulted, .any)]

/-- Reads a source file from a text. -/
def File.ofText (content : String) : Except Fault File :=
  (File.shape.readText content).map fun value => (File.ofJson? value).getD ⟨[]⟩

/-- The shape of a path. -/
def Path.shape : Shape :=
  .record "Path" [("segments", .defaulted, .any)]

/-- Reads a path from a text. -/
def Path.ofText (content : String) : Except Fault Path :=
  (Path.shape.readText content).map fun value => (Path.ofJson? value).getD default

/-- Reads a type from a text. -/
def TypeRef.ofText (content : String) : Except Fault TypeRef :=
  (Family.readText ⟨"Type", TypeRef.layout⟩ content).map fun value =>
    (TypeRef.ofJson? value).getD default

/-- Reads a pattern from a text. -/
def Pat.ofText (content : String) : Except Fault Pat :=
  (Family.readText ⟨"Pat", Pat.layout⟩ content).map fun value => (Pat.ofJson? value).getD default

/-- Reads an expression from a text. -/
def Expr.ofText (content : String) : Except Fault Expr :=
  (Family.readText ⟨"Expr", Expr.layout⟩ content).map fun value => (Expr.ofJson? value).getD default

end AbiRecovery.Tree
