import AbiRecovery.Proofs.Json.NodeFields
import AbiRecovery.Proofs.ListLemmas
import AbiRecovery.Tree.Reader
import Mathlib.Data.List.Basic
import Mathlib.Tactic.CasesM

/-!
# The schema of the tree

What the readers of the tree read, as data. A kind of node is a scalar, a `Record` with one list of
fields, or a `Family` with a list of fields for each tag (`Family.variants`); a field has a key and
a `Slot`, which says what is read under the key and what stands for a value that cannot be read.

Every reader follows the schema (`Kind.read_eq`): it finds the fields of the node, of an object
under their keys and of a list by position, and builds the node from the values of its slots. Each
slot is read on its own (`Slot.lenient`), so a field depends on the value under its key alone.
-/

namespace AbiRecovery.Tree

open Json

/-! ### Kinds of nodes -/

/-- The kinds of nodes that have several variants, told apart by a tag. -/
inductive Family where
  | item | useTree | visibility | fields | enumEntry | implEntry | param
  | typeRef | pathArguments | stmt | pat | expr | lit | tokenTree

/-- The kinds of nodes that have one form and no tag. -/
inductive Record where
  | file | ident | field | signature | path | pathSegment | fieldValue | arm | macroCall | block

/-- What a value in the tree may be read as. -/
inductive Kind where
  | text
  | flag
  | record (record : Record)
  | family (family : Family)

instance : Coe Record Kind := ⟨.record⟩
instance : Coe Family Kind := ⟨.family⟩

/-- The nodes of a family. -/
abbrev Family.Node : Family → Type
  | item => Item
  | useTree => UseTree
  | visibility => Visibility
  | fields => Fields
  | enumEntry => EnumEntry
  | implEntry => ImplEntry
  | param => Param
  | typeRef => TypeRef
  | pathArguments => PathArguments
  | stmt => Stmt
  | pat => Pat
  | expr => Expr
  | lit => Lit
  | tokenTree => TokenTree

/-- The nodes of a record. -/
abbrev Record.Node : Record → Type
  | file => File
  | ident => Ident
  | field => Field
  | signature => Signature
  | path => Path
  | pathSegment => PathSegment
  | fieldValue => FieldValue
  | arm => Arm
  | macroCall => MacroCall
  | block => Block

/-- The nodes of a kind. -/
abbrev Kind.Node : Kind → Type
  | text => String
  | flag => Bool
  | record kind => kind.Node
  | family kind => kind.Node

/-- The reader of a family. -/
def Family.read : (family : Family) → Json → Option family.Node
  | item => Item.ofJson?
  | useTree => UseTree.ofJson?
  | visibility => Visibility.ofJson?
  | fields => Fields.ofJson?
  | enumEntry => EnumEntry.ofJson?
  | implEntry => ImplEntry.ofJson?
  | param => Param.ofJson?
  | typeRef => TypeRef.ofJson?
  | pathArguments => PathArguments.ofJson?
  | stmt => Stmt.ofJson?
  | pat => Pat.ofJson?
  | expr => Expr.ofJson?
  | lit => Lit.ofJson?
  | tokenTree => TokenTree.ofJson?

/-- The reader of a record. -/
def Record.read : (record : Record) → Json → Option record.Node
  | file => File.ofJson?
  | ident => Ident.ofJson?
  | field => Field.ofJson?
  | signature => Signature.ofJson?
  | path => Path.ofJson?
  | pathSegment => PathSegment.ofJson?
  | fieldValue => FieldValue.ofJson?
  | arm => Arm.ofJson?
  | macroCall => MacroCall.ofJson?
  | block => Block.ofJson?

/-- The reader of a kind. -/
def Kind.read : (kind : Kind) → Json → Option kind.Node
  | text => fun
    | .str content => some content
    | _ => none
  | flag => fun
    | .bool value => some value
    | _ => none
  | record kind => kind.read
  | family kind => kind.read

/-- What stands for a node of a family that could not be read. -/
def Family.blank : (family : Family) → family.Node
  | item => Item.other
  | useTree => UseTree.other
  | visibility => Visibility.inherited
  | fields => Fields.unit
  | enumEntry => EnumEntry.other
  | implEntry => ImplEntry.other
  | param => Param.other
  | typeRef => TypeRef.other
  | pathArguments => PathArguments.none
  | stmt => Stmt.other
  | pat => Pat.other
  | expr => Expr.other
  | lit => Lit.other
  | tokenTree => TokenTree.other

/-- What stands for a record that could not be read. -/
def Record.blank : (record : Record) → record.Node
  | file => ⟨[]⟩
  | ident => ⟨""⟩
  | field => ⟨.inherited, none, .other⟩
  | signature => ⟨⟨""⟩, []⟩
  | path => ⟨[]⟩
  | pathSegment => ⟨⟨""⟩, .none⟩
  | fieldValue => ⟨⟨""⟩, .other⟩
  | arm => ⟨.other, .other⟩
  | macroCall => ⟨⟨[]⟩, []⟩
  | block => ⟨[]⟩

/-- What stands for a value of a kind that could not be read. -/
def Kind.blank : (kind : Kind) → kind.Node
  | text => ""
  | flag => false
  | record kind => kind.blank
  | family kind => kind.blank

/-! ### Slots and variants -/

/-- What a field holds: a node, maybe a node, or a list of nodes. -/
inductive Slot where
  | node (kind : Kind)
  | optional (kind : Kind)
  | nodes (kind : Kind)

/-- The values of a field. -/
abbrev Slot.Value : Slot → Type
  | node kind => kind.Node
  | optional kind => Option kind.Node
  | nodes kind => List kind.Node

/-- The value of a field that is missing. -/
def Slot.blank : (slot : Slot) → slot.Value
  | node kind => kind.blank
  | optional _ => Option.none
  | nodes _ => []

/-- **Lenient reading** of what stands under the key of a field: what cannot be read is blank, also
an item of a list, which keeps its place; what is no list has no items. -/
def Slot.lenient : (slot : Slot) → Option Json → slot.Value
  | node kind, found => (found.bind kind.read).getD kind.blank
  | optional kind, found => found.bind kind.read
  | nodes kind, found => (listed found).map fun item => (kind.read item).getD kind.blank

/-- The values of fields, one after the other. -/
abbrev Values : List (String × Slot) → Type
  | [] => Unit
  | (_, slot) :: fields => slot.Value × Values fields

/-- A function of the values of fields. -/
abbrev Build : List (String × Slot) → Type → Type
  | [], α => α
  | (_, slot) :: fields, α => slot.Value → Build fields α

/-- A form of a node: its fields in order, and the node that their values make. -/
structure Variant (α : Type) where
  fields : List (String × Slot)
  build : Build fields α

namespace Variant

variable {α : Type}

/-- The keys of a form. -/
def keys (variant : Variant α) : List String :=
  variant.fields.map Prod.fst

/-- The node that values make. -/
def make (variant : Variant α) : Values variant.fields → α :=
  go variant.fields variant.build
where
  /-- The node that the values of the remaining fields make. -/
  go : (fields : List (String × Slot)) → Build fields α → Values fields → α
    | [], node, _ => node
    | _ :: fields, build, values => go fields (build values.1) values.2

end Variant

/-- The values of fields under their keys. -/
def Values.ofMembers (members : List (String × Json)) :
    (fields : List (String × Slot)) → Values fields
  | [] => ()
  | (key, slot) :: fields => (slot.lenient (lookup key members), ofMembers members fields)

/-- The node of a form with the given members. -/
def Variant.node {α : Type} (variant : Variant α) (members : List (String × Json)) : α :=
  variant.make (Values.ofMembers members variant.fields)

/-! ### The tables -/

/-- The form of a record. -/
def Record.variant : (record : Record) → Variant record.Node
  | file => ⟨[("items", .nodes Family.item)], File.mk⟩
  | ident => ⟨[("to_string", .node .text)], Ident.mk⟩
  | field =>
    ⟨[("vis", .node Family.visibility), ("ident", .optional Record.ident),
      ("ty", .node Family.typeRef)], Field.mk⟩
  | signature =>
    ⟨[("ident", .node Record.ident), ("inputs", .nodes Family.param)], Signature.mk⟩
  | path => ⟨[("segments", .nodes Record.pathSegment)], Path.mk⟩
  | pathSegment =>
    ⟨[("ident", .node Record.ident), ("arguments", .node Family.pathArguments)], PathSegment.mk⟩
  | fieldValue => ⟨[("member", .node Record.ident), ("expr", .node Family.expr)], FieldValue.mk⟩
  | arm => ⟨[("pat", .node Family.pat), ("body", .node Family.expr)], Arm.mk⟩
  | macroCall =>
    ⟨[("path", .node Record.path), ("tokens", .nodes Family.tokenTree)], MacroCall.mk⟩
  | block => ⟨[("stmts", .nodes Family.stmt)], Block.mk⟩

/-- The variants of a family by tag; a variant with two tags is listed under both. -/
def Family.variants : (family : Family) → List (String × Variant family.Node)
  | item =>
    [("ItemUse", ⟨[("tree", .node Family.useTree)], Item.use⟩),
      ("ItemStruct", ⟨[("vis", .node Family.visibility), ("ident", .node Record.ident),
        ("fields", .node Family.fields)],
          fun vis ident fields => Item.struct ⟨vis, ident, fields⟩⟩),
      ("ItemEnum", ⟨[("vis", .node Family.visibility), ("ident", .node Record.ident),
        ("variants", .nodes Family.enumEntry)],
          fun vis ident entries => Item.enum ⟨vis, ident, entries⟩⟩),
      ("ItemImpl", ⟨[("self_ty", .node Family.typeRef), ("items", .nodes Family.implEntry)],
        fun selfType entries => Item.impl ⟨selfType, entries⟩⟩),
      ("ItemFn", ⟨[("vis", .node Family.visibility), ("sig", .node Record.signature),
        ("block", .node Record.block)], fun vis sig block => Item.function ⟨vis, sig, block⟩⟩)]
  | useTree =>
    [("UsePath", ⟨[("ident", .node Record.ident), ("tree", .node Family.useTree)], UseTree.path⟩),
      ("UseName", ⟨[("ident", .node Record.ident)], UseTree.name⟩),
      ("UseRename",
        ⟨[("ident", .node Record.ident), ("rename", .node Record.ident)], UseTree.rename⟩),
      ("UseGlob", ⟨[], UseTree.glob⟩),
      ("UseGroup", ⟨[("items", .nodes Family.useTree)], UseTree.group⟩)]
  | visibility =>
    [("VisPublic", ⟨[], Visibility.everywhere⟩), ("VisCrate", ⟨[], Visibility.crateWide⟩),
      ("VisRestricted", ⟨[], Visibility.restricted⟩), ("VisInherited", ⟨[], Visibility.inherited⟩)]
  | fields =>
    [("FieldsNamed", ⟨[("named", .nodes Record.field)], Fields.named⟩),
      ("FieldsUnnamed", ⟨[("unnamed", .nodes Record.field)], Fields.unnamed⟩),
      ("FieldsUnit", ⟨[], Fields.unit⟩), ("Unit", ⟨[], Fields.unit⟩)]
  | enumEntry =>
    [("Variant",
      ⟨[("ident", .node Record.ident), ("fields", .node Family.fields)], EnumEntry.variant⟩)]
  | implEntry =>
    [("ImplItemMethod",
        ⟨[("sig", .node Record.signature), ("block", .node Record.block)], ImplEntry.method⟩),
      ("ImplItemFn",
        ⟨[("sig", .node Record.signature), ("block", .node Record.block)], ImplEntry.method⟩)]
  | param =>
    [("PatType", ⟨[("pat", .node Family.pat), ("ty", .node Family.typeRef)], Param.typed⟩),
      ("Typed", ⟨[("pat", .node Family.pat), ("ty", .node Family.typeRef)], Param.typed⟩),
      ("Receiver", ⟨[], Param.receiver⟩)]
  | typeRef =>
    [("TypePath", ⟨[("path", .node Record.path)], TypeRef.path⟩),
      ("TypeArray", ⟨[("elem", .node Family.typeRef), ("len", .node Family.expr)], TypeRef.array⟩),
      ("TypeReference", ⟨[("elem", .node Family.typeRef)], TypeRef.reference⟩),
      ("TypeParen", ⟨[("elem", .node Family.typeRef)], TypeRef.paren⟩)]
  | pathArguments =>
    [("AngleBracketedGenericArguments",
        ⟨[("args", .nodes Family.typeRef)], PathArguments.angleBracketed⟩),
      ("ParenthesizedGenericArguments", ⟨[], PathArguments.parenthesized⟩),
      ("None", ⟨[], PathArguments.none⟩)]
  | stmt =>
    [("Local", ⟨[("pat", .node Family.pat), ("init", .optional Family.expr)], Stmt.binding⟩),
      ("StmtExpr", ⟨[("expr", .node Family.expr)], Stmt.expr⟩),
      ("StmtSemi", ⟨[("expr", .node Family.expr)], Stmt.semi⟩)]
  | pat =>
    [("PatIdent", ⟨[("ident", .node Record.ident)], Pat.ident⟩),
      ("PatType", ⟨[("pat", .node Family.pat), ("ty", .node Family.typeRef)], Pat.typed⟩),
      ("PatLit", ⟨[("expr", .node Family.expr)], Pat.lit⟩),
      ("PatWild", ⟨[], Pat.wild⟩)]
  | expr =>
    [("ExprCall", ⟨[("func", .node Family.expr), ("args", .nodes Family.expr)], Expr.call⟩),
      ("ExprMethodCall", ⟨[("receiver", .node Family.expr), ("method", .node Record.ident),
        ("args", .nodes Family.expr)], Expr.methodCall⟩),
      ("ExprPath", ⟨[("path", .node Record.path)], Expr.path⟩),
      ("ExprStruct",
        ⟨[("path", .node Record.path), ("fields", .nodes Record.fieldValue)], Expr.struct⟩),
      ("ExprTry", ⟨[("expr", .node Family.expr)], Expr.question⟩),
      ("ExprMatch", ⟨[("expr", .node Family.expr), ("arms", .nodes Record.arm)], Expr.matchOn⟩),
      ("ExprMacro", ⟨[("mac", .node Record.macroCall)], Expr.macroCall⟩),
      ("ExprLit", ⟨[("lit", .node Family.lit)], Expr.lit⟩),
      ("ExprReference", ⟨[("expr", .node Family.expr)], Expr.reference⟩),
      ("ExprUnary", ⟨[("expr", .node Family.expr)], Expr.unary⟩),
      ("ExprParen", ⟨[("expr", .node Family.expr)], Expr.paren⟩),
      ("ExprBlock", ⟨[("block", .node Record.block)], Expr.block⟩),
      ("ExprReturn", ⟨[("expr", .optional Family.expr)], Expr.ret⟩)]
  | lit =>
    [("LitInt", ⟨[("to_string", .node .text)], Lit.int⟩),
      ("LitStr", ⟨[("to_string", .node .text)], Lit.str⟩),
      ("LitBool", ⟨[("value", .node .flag)], Lit.bool⟩)]
  | tokenTree =>
    [("Ident", ⟨[("to_string", .node .text)], TokenTree.ident⟩),
      ("Punct", ⟨[("op", .node .text)], TokenTree.punct⟩),
      ("Literal", ⟨[("to_string", .node .text)], TokenTree.literal⟩),
      ("Group",
        ⟨[("delimiter", .node .text), ("stream", .nodes Family.tokenTree)], TokenTree.group⟩)]

/-- The variant that is not recognised. -/
def Family.unrecognised : (family : Family) → family.Node
  | item => Item.other
  | useTree => UseTree.other
  | visibility => Visibility.other
  | fields => Fields.other
  | enumEntry => EnumEntry.other
  | implEntry => ImplEntry.other
  | param => Param.other
  | typeRef => TypeRef.other
  | pathArguments => PathArguments.other
  | stmt => Stmt.other
  | pat => Pat.other
  | expr => Expr.other
  | lit => Lit.other
  | tokenTree => TokenTree.other

/-- The variant of a tag; a tag that is not listed gives the variant that is not recognised. -/
def Family.variant (family : Family) (tag : String) : Variant family.Node :=
  (family.variants.lookup tag).getD ⟨[], family.unrecognised⟩

/-! ### Readers follow the schema -/

/-- What the schema says that a kind reads. -/
def Kind.decode (kind : Kind) (node : Json) : Option kind.Node :=
  match kind with
  | text => Kind.text.read node
  | flag => Kind.flag.read node
  | record kind => (node.fields? kind.variant.keys).map kind.variant.node
  | family kind =>
    (node.taggedFields? fun tag => (kind.variant tag).keys).map fun found =>
      (kind.variant found.1).node found.2

theorem text_eq {outer : Json} (members : Members outer) (key : String) :
    members.text key = Slot.lenient (.node .text) (lookup key members.plain) :=
  members.node_eq key Kind.text.read

theorem flag_eq {outer : Json} (members : Members outer) (key : String) :
    members.flag key = Slot.lenient (.node .flag) (lookup key members.plain) :=
  members.node_eq key Kind.flag.read

theorem Record.decode_eq {record : Record} {node : Json} {keys : List String}
    {build : Members node → record.Node} (hkeys : keys = record.variant.keys)
    (hbuild : ∀ fields, build fields = record.variant.node fields.plain) :
    (Kind.record record).decode node = (node.record? keys).map build := by
  rw [Kind.decode, ← record?_plain, ← hkeys, Option.map_map, funext hbuild]
  rfl

/-- A reader follows the schema of a family if it does so at every listed tag, and gives the variant
that is not recognised at every other one. -/
theorem Family.decode_eq {family : Family} {node : Json} {layout : String → List String}
    {build : String × Members node → family.Node}
    (hlisted : family.variants.Forall fun row => layout row.1 = row.2.keys ∧
      ∀ fields, build (row.1, fields) = row.2.node fields.plain)
    (hother : ∀ tag, (family.variants.Forall fun row => tag ≠ row.1) → layout tag = [] ∧
      ∀ fields, build (tag, fields) = family.unrecognised) :
    (Kind.family family).decode node = (node.variant? layout).map build := by
  have hboth : ∀ tag, layout tag = (family.variant tag).keys ∧
      ∀ fields, build (tag, fields) = (family.variant tag).node fields.plain := by
    intro tag
    unfold variant
    cases hfound : family.variants.lookup tag with
    | none =>
      refine hother tag (List.forall_iff_forall_mem.mpr fun row hrow => ?_)
      simpa using List.lookup_eq_none_iff.mp hfound row hrow
    | some variant => exact List.forall_iff_forall_mem.mp hlisted _ (mem_of_lookup_eq_some hfound)
  have hlayout : layout = fun tag => (family.variant tag).keys := funext fun tag => (hboth tag).1
  rw [Kind.decode, ← variant?_plain, ← hlayout, Option.map_map]
  exact congrArg (Option.map · _) (funext fun found => ((hboth found.1).2 found.2).symm)

theorem Record.read_eq (record : Record) (node : Json) :
    record.read node = (Kind.record record).decode node := by
  symm
  -- Each reader is opened once; the readers of its fields stay closed.
  cases record
  case' file => rw [read, File.ofJson?]
  case' ident => rw [read, Ident.ofJson?]
  case' field => rw [read, Field.ofJson?]
  case' signature => rw [read, Signature.ofJson?]
  case' path => rw [read, Path.ofJson?]
  case' pathSegment => rw [read, PathSegment.ofJson?]
  case' fieldValue => rw [read, FieldValue.ofJson?]
  case' arm => rw [read, Arm.ofJson?]
  case' macroCall => rw [read, MacroCall.ofJson?]
  case' block => rw [read, Block.ofJson?]
  all_goals
    refine decode_eq rfl fun fields => ?_
    simp only [Members.node_eq, Members.nodes_eq, Members.optional_eq, text_eq]
    rfl

theorem Family.read_eq (family : Family) (node : Json) :
    family.read node = (Kind.family family).decode node := by
  symm
  cases family
  case' item => rw [read, Item.ofJson?]; delta Item.layout
  case' useTree => rw [read, UseTree.ofJson?]; delta UseTree.layout
  case' visibility => rw [read, Visibility.ofJson?]; delta Visibility.layout
  case' fields => rw [read, Fields.ofJson?]; delta Fields.layout
  case' enumEntry => rw [read, EnumEntry.ofJson?]; delta EnumEntry.layout
  case' implEntry => rw [read, ImplEntry.ofJson?]; delta ImplEntry.layout
  case' param => rw [read, Param.ofJson?]; delta Param.layout
  case' typeRef => rw [read, TypeRef.ofJson?]; delta TypeRef.layout
  case' pathArguments => rw [read, PathArguments.ofJson?]; delta PathArguments.layout
  case' stmt => rw [read, Stmt.ofJson?]; delta Stmt.layout
  case' pat => rw [read, Pat.ofJson?]; delta Pat.layout
  case' expr => rw [read, Expr.ofJson?]; delta Expr.layout
  case' lit => rw [read, Lit.ofJson?]; delta Lit.layout
  case' tokenTree => rw [read, TokenTree.ofJson?]; delta TokenTree.layout
  all_goals
    refine decode_eq ?_ fun tag hother => ?_
    · simp only [Members.node_eq, Members.nodes_eq, Members.optional_eq, text_eq, flag_eq]
      rw [variants]
      repeat' apply And.intro
      all_goals
        intros
        rfl
    · rw [variants] at hother
      simp only [List.forall_cons] at hother
      cases_type* And
      simp only [unrecognised, implies_true, and_self]

/-- **Every reader follows the schema.** -/
theorem Kind.read_eq (kind : Kind) (node : Json) : kind.read node = kind.decode node := by
  cases kind with
  | text => rfl
  | flag => rfl
  | record record => exact record.read_eq node
  | family family => exact family.read_eq node

/-! ### Field by field -/

/-- One of the fields `fields`, with its key and its slot. -/
inductive FieldOf : List (String × Slot) → String → Slot → Type
  | here {key : String} {slot : Slot} {fields : List (String × Slot)} :
    FieldOf ((key, slot) :: fields) key slot
  | there {other : String × Slot} {key : String} {slot : Slot} {fields : List (String × Slot)} :
    FieldOf fields key slot → FieldOf (other :: fields) key slot

/-- The value of a field. -/
def FieldOf.get {key : String} {slot : Slot} : {fields : List (String × Slot)} →
    FieldOf fields key slot → Values fields → slot.Value
  | _, here, values => values.1
  | _, there field, values => field.get values.2

theorem FieldOf.get_ofMembers {fields : List (String × Slot)} {key : String} {slot : Slot}
    (field : FieldOf fields key slot) (members : List (String × Json)) :
    field.get (Values.ofMembers members fields) = slot.lenient (lookup key members) := by
  induction field with
  | here => rfl
  | there field ih => exact ih

theorem Slot.lenient_none (slot : Slot) : slot.lenient none = slot.blank := by
  cases slot <;> rfl

theorem Family.make_injective (family : Family) (tag : String) :
    Function.Injective (family.variant tag).make := by
  have hrows : family.variants.Forall fun row => Function.Injective row.2.make := by
    cases family <;> simp only [variants, List.Forall] <;> and_intros
    all_goals
      dsimp only [Function.Injective, Variant.make, Variant.make.go, Values]
      simp
  unfold variant
  cases hfound : family.variants.lookup tag with
  | none => exact fun _ _ _ => rfl
  | some variant => exact List.forall_iff_forall_mem.mp hrows _ (mem_of_lookup_eq_some hfound)

theorem Family.read_obj (family : Family) {members : List (String × Json)} {tag : String}
    (htag : lookup tagKey members = some (.str tag)) :
    family.read (.obj members) = some ((family.variant tag).node members) := by
  rw [family.read_eq, Kind.decode, taggedFields?, htag]
  rfl

/-- **Tagged nodes are read field by field.** An object with a tag is always read, as the variant of
its tag. Each field of the node is what the lenient reading makes of the value under its own key,
and blank if the key is missing. So if another object with the same tag has the same value under the
key of a field, the two nodes have the same field, whatever else the objects hold. -/
theorem tagged_object_field_by_field (family : Family) {members : List (String × Json)}
    {tag : String} (htag : lookup tagKey members = some (.str tag)) :
    Function.Injective (family.variant tag).make ∧
      ∃ values : Values (family.variant tag).fields,
        family.read (.obj members) = some ((family.variant tag).make values) ∧
        (∀ key slot (field : FieldOf (family.variant tag).fields key slot),
          field.get values = slot.lenient (lookup key members) ∧
            (lookup key members = none → field.get values = slot.blank)) ∧
        ∀ others : List (String × Json), lookup tagKey others = some (.str tag) →
          ∃ otherValues : Values (family.variant tag).fields,
            family.read (.obj others) = some ((family.variant tag).make otherValues) ∧
            ∀ key slot (field : FieldOf (family.variant tag).fields key slot),
              lookup key others = lookup key members →
                field.get otherValues = field.get values := by
  refine ⟨family.make_injective tag, _, family.read_obj htag, fun key slot field => ?_,
    fun others hothers => ⟨_, family.read_obj hothers, fun key slot field hsame => ?_⟩⟩
  · have hget := field.get_ofMembers members
    refine ⟨hget, fun hmissing => ?_⟩
    rw [hget, hmissing, slot.lenient_none]
  · rw [field.get_ofMembers, field.get_ofMembers, hsame]

/-- A method under its second tag: its name is damaged, and an unknown key stands in the way. -/
def renamedMethod : List (String × Json) :=
  [("sig", .num (.int 7)), (tagKey, .str "ImplItemFn"), ("span", .null),
    ("block", .obj [("stmts", .arr [.null])])]

theorem renamedMethod_field_by_field :
    lookup tagKey renamedMethod = some (.str "ImplItemFn") ∧
      (Family.implEntry.variant "ImplItemFn").keys = ["sig", "block"] ∧
      ∃ values : Values (Family.implEntry.variant "ImplItemFn").fields,
        Family.implEntry.read (.obj renamedMethod) =
          some ((Family.implEntry.variant "ImplItemFn").make values) ∧
        ∀ key slot (field : FieldOf (Family.implEntry.variant "ImplItemFn").fields key slot),
          field.get values = slot.lenient (lookup key renamedMethod) := by
  have htag : lookup tagKey renamedMethod = some (.str "ImplItemFn") := rfl
  obtain ⟨-, values, hread, hfields, -⟩ := tagged_object_field_by_field .implEntry htag
  exact ⟨htag, rfl, values, hread, fun key slot field => (hfields key slot field).1⟩

end AbiRecovery.Tree
