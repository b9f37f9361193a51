import AbiRecovery.Proofs.Program.QualifiedTypes

/-!
# Borrowed types

A borrowed type is flattened as the type itself, wherever the borrow stands: around a type, around
the elements of an array, around a generic argument or inside of one. `TypeRef.unborrowed` takes all
borrows and parentheses away. A function that looks through the outermost ones, and that gives the
same for a path and for an array, gives the same for every type (`apply_unborrowed`); flattening is
such a function, and so are the two that look at the elements of an array and at a generic argument.

Flattening looks at the names of a path and of its first generic argument, and no deeper.
`TypeRef.cut` takes away what is below them.
-/

namespace AbiRecovery

open AbiRecovery.Tree

namespace Tree

/-! ### Types without borrows -/

mutual

/-- A type **without borrows and parentheses**, at every depth, and without the parentheses, borrows
and unary operators around the lengths of arrays. -/
def TypeRef.unborrowed : TypeRef → TypeRef
  | .path path => .path path.unborrowed
  | .array elem len => .array elem.unborrowed (len.unborrowed true)
  | .reference elem => elem.unborrowed
  | .paren elem => elem.unborrowed
  | .other => .other

-- The nodes below have no borrowed types of their own. They pass on what becomes of their parts.

def TypeRef.unborrowedAll : List TypeRef → List TypeRef
  | [] => []
  | type :: types => type.unborrowed :: TypeRef.unborrowedAll types

def Path.unborrowed : Path → Path
  | ⟨segments⟩ => ⟨PathSegment.unborrowedAll segments⟩

def PathSegment.unborrowed : PathSegment → PathSegment
  | ⟨ident, arguments⟩ => ⟨ident, arguments.unborrowed⟩

def PathSegment.unborrowedAll : List PathSegment → List PathSegment
  | [] => []
  | segment :: segments => segment.unborrowed :: PathSegment.unborrowedAll segments

def PathArguments.unborrowed : PathArguments → PathArguments
  | .angleBracketed args => .angleBracketed (TypeRef.unborrowedAll args)
  | .parenthesized => .parenthesized
  | .none => .none
  | .other => .other

def Pat.unborrowed : Pat → Pat
  | .ident ident => .ident ident
  | .typed pat type => .typed pat.unborrowed type.unborrowed
  | .lit expr => .lit (expr.unborrowed false)
  | .wild => .wild
  | .other => .other

def FieldValue.unborrowed : FieldValue → FieldValue
  | ⟨member, expr⟩ => ⟨member, expr.unborrowed false⟩

def FieldValue.unborrowedAll : List FieldValue → List FieldValue
  | [] => []
  | field :: fields => field.unborrowed :: FieldValue.unborrowedAll fields

def Arm.unborrowed : Arm → Arm
  | ⟨pat, body⟩ => ⟨pat.unborrowed, body.unborrowed false⟩

def Arm.unborrowedAll : List Arm → List Arm
  | [] => []
  | arm :: arms => arm.unborrowed :: Arm.unborrowedAll arms

def MacroCall.unborrowed : MacroCall → MacroCall
  | ⟨path, tokens⟩ => ⟨path.unborrowed, tokens⟩

def Block.unborrowed : Block → Block
  | ⟨stmts⟩ => ⟨Stmt.unborrowedAll stmts⟩

def Stmt.unborrowed : Stmt → Stmt
  | .binding pat init => .binding pat.unborrowed (Expr.unborrowed? init)
  | .expr expr => .expr (expr.unborrowed false)
  | .semi expr => .semi (expr.unborrowed false)
  | .other => .other

def Stmt.unborrowedAll : List Stmt → List Stmt
  | [] => []
  | stmt :: stmts => stmt.unborrowed :: Stmt.unborrowedAll stmts

/-- An expression whose types have no borrows and parentheses. If it is the length of an array it has
no parentheses, borrows and unary operators around it either. -/
def Expr.unborrowed (isLength : Bool) : Expr → Expr
  | .call func args => .call (func.unborrowed false) (Expr.unborrowedAll args)
  | .methodCall receiver method args =>
    .methodCall (receiver.unborrowed false) method (Expr.unborrowedAll args)
  | .path path => .path path.unborrowed
  | .struct path fields => .struct path.unborrowed (FieldValue.unborrowedAll fields)
  | .question expr => .question (expr.unborrowed false)
  | .matchOn expr arms => .matchOn (expr.unborrowed false) (Arm.unborrowedAll arms)
  | .macroCall call => .macroCall call.unborrowed
  | .lit lit => .lit lit
  | .reference expr => if isLength then expr.unborrowed true else .reference (expr.unborrowed false)
  | .unary expr => if isLength then expr.unborrowed true else .unary (expr.unborrowed false)
  | .paren expr => if isLength then expr.unborrowed true else .paren (expr.unborrowed false)
  | .block block => .block block.unborrowed
  | .ret expr => .ret (Expr.unborrowed? expr)
  | .other => .other

def Expr.unborrowedAll : List Expr → List Expr
  | [] => []
  | expr :: exprs => expr.unborrowed false :: Expr.unborrowedAll exprs

def Expr.unborrowed? : Option Expr → Option Expr
  | none => none
  | some expr => some (expr.unborrowed false)

end

/-! ### Types without what is not looked at -/

/-- A path without generic arguments. -/
def Path.plain (path : Path) : Path :=
  ⟨path.segments.map fun segment => ⟨segment.ident, .none⟩⟩

/-- A type whose path has no generic arguments. Borrows and parentheses around it stay. -/
def TypeRef.plain : TypeRef → TypeRef
  | .path inner => .path inner.plain
  | .reference elem => .reference elem.plain
  | .paren elem => .paren elem.plain
  | type => type

/-- Segments up to the first generic arguments, with the first one of these, which has no generic
arguments itself. -/
def cutSegments : List PathSegment → List PathSegment
  | [] => []
  | segment :: segments =>
    match segment.arguments with
    | .angleBracketed args =>
      [⟨segment.ident, .angleBracketed (args.head?.toList.map TypeRef.plain)⟩]
    | _ => segment :: cutSegments segments

/-- A type **cut off** below the segments of its first generic argument. -/
def TypeRef.cut : TypeRef → TypeRef
  | .path inner => .path ⟨cutSegments inner.segments⟩
  | .array elem len => .array elem.plain len
  | .reference elem => .reference elem.cut
  | .paren elem => .paren elem.cut
  | .other => .other

/-! ### Names -/

theorem PathSegment.ident_unborrowed : ∀ segment : PathSegment,
    segment.unborrowed.ident = segment.ident
  | ⟨_, _⟩ => rfl

theorem Path.idents_unborrowed (path : Path) : path.unborrowed.idents = path.idents := by
  obtain ⟨segments⟩ := path
  induction segments with
  | nil => rfl
  | cons segment segments ih =>
    rw [unborrowed] at ih ⊢
    rw [PathSegment.unborrowedAll, idents_cons, idents_cons, PathSegment.ident_unborrowed, ih]

theorem Path.leaf?_unborrowed (path : Path) : path.unborrowed.leaf? = path.leaf? := by
  rw [leaf?, idents_unborrowed, leaf?]

theorem Path.idents_plain (path : Path) : path.plain.idents = path.idents := by
  rw [plain, idents, idents, List.filterMap_map]
  rfl

theorem Path.leaf?_plain (path : Path) : path.plain.leaf? = path.leaf? := by
  rw [leaf?, idents_plain, leaf?]

end Tree

/-! ### Looking through borrows -/

section
variable {α : Type} {f : TypeRef → α} (hreference : ∀ elem, f (.reference elem) = f elem)
  (hparen : ∀ elem, f (.paren elem) = f elem)
include hreference hparen

/-- What **looks through borrows and parentheses** is the same without them, if it is for paths and
arrays. -/
theorem apply_unborrowed (hpath : ∀ path, f (.path path.unborrowed) = f (.path path))
    (harray : ∀ elem len, f (.array elem.unborrowed (len.unborrowed true)) = f (.array elem len)) :
    ∀ type : TypeRef, f type.unborrowed = f type
  | .path path => hpath path
  | .array elem len => harray elem len
  | .reference elem => (apply_unborrowed hpath harray elem).trans (hreference elem).symm
  | .paren elem => (apply_unborrowed hpath harray elem).trans (hparen elem).symm
  | .other => rfl

theorem apply_plain (hpath : ∀ path, f (.path path.plain) = f (.path path)) :
    ∀ type : TypeRef, f type.plain = f type
  | .path path => hpath path
  | .array elem len => rfl
  | .reference elem => by
    rw [TypeRef.plain, hreference, hreference]
    exact apply_plain hpath elem
  | .paren elem => by
    rw [TypeRef.plain, hparen, hparen]
    exact apply_plain hpath elem
  | .other => rfl

end

namespace TypePath

/-! ### Arrays -/

theorem elementName?_unborrowed (elem : TypeRef) :
    elementName? elem.unborrowed = elementName? elem :=
  apply_unborrowed (fun _ => rfl) (fun _ => rfl) Path.leaf?_unborrowed (fun _ _ => rfl) elem

theorem elementName?_plain (elem : TypeRef) : elementName? elem.plain = elementName? elem :=
  apply_plain (fun _ => rfl) (fun _ => rfl) Path.leaf?_plain elem

theorem lengthText?_unborrowed : ∀ len : Expr, lengthText? (len.unborrowed true) = lengthText? len
  | .path path => path.leaf?_unborrowed
  | .paren expr | .reference expr | .unary expr => lengthText?_unborrowed expr
  | .call _ _ | .methodCall _ _ _ | .struct _ _ | .question _ | .matchOn _ _ | .macroCall _ | .lit _
  | .block _ | .ret _ | .other => rfl

/-! ### Paths -/

theorem argumentTokens_unborrowed (args : List TypeRef) :
    argumentTokens (TypeRef.unborrowedAll args) = argumentTokens args := by
  cases args with
  | nil => rfl
  | cons first others =>
    exact apply_unborrowed (f := fun type => argumentTokens [type]) (fun _ => rfl) (fun _ => rfl)
      Path.idents_unborrowed (fun _ _ => rfl) first

theorem argumentTokens_plain (args : List TypeRef) :
    argumentTokens (args.head?.toList.map TypeRef.plain) = argumentTokens args := by
  cases args with
  | nil => rfl
  | cons first others =>
    exact apply_plain (f := fun type => argumentTokens [type]) (fun _ => rfl) (fun _ => rfl)
      Path.idents_plain first

theorem segmentTokens_unborrowed (segments : List PathSegment) :
    segmentTokens (PathSegment.unborrowedAll segments) = segmentTokens segments := by
  induction segments with
  | nil => rfl
  | cons segment segments ih =>
    obtain ⟨ident, arguments⟩ := segment
    rw [PathSegment.unborrowedAll, PathSegment.unborrowed, segmentTokens, segmentTokens, ih]
    cases arguments with
    | angleBracketed args => simp only [PathArguments.unborrowed, argumentTokens_unborrowed]
    | parenthesized | none | other => rfl

theorem segmentTokens_cut (segments : List PathSegment) :
    segmentTokens (cutSegments segments) = segmentTokens segments := by
  induction segments with
  | nil => rfl
  | cons segment segments ih =>
    obtain ⟨ident, arguments⟩ := segment
    cases arguments with
    | angleBracketed args => simp only [cutSegments, segmentTokens, argumentTokens_plain]
    | parenthesized | none | other => simp only [cutSegments, segmentTokens, ih]

/-! ### Types -/

/-- **Flattening** looks through borrows and parentheses at every depth. -/
theorem ofType_unborrowed (type : TypeRef) : ofType type.unborrowed = ofType type := by
  refine apply_unborrowed (fun _ => rfl) (fun _ => rfl) (fun path => ?_) (fun elem len => ?_) type
  · obtain ⟨segments⟩ := path
    rw [Path.unborrowed, ofType, ofType, segmentTokens_unborrowed]
  · rw [ofType, ofType, arrayToken?, arrayToken?, elementName?_unborrowed, lengthText?_unborrowed]

theorem ofType_cut (type : TypeRef) : ofType type.cut = ofType type := by
  fun_induction TypeRef.cut type with
  | case1 path => rw [ofType, ofType, segmentTokens_cut]
  | case2 elem len => rw [ofType, ofType, arrayToken?, arrayToken?, elementName?_plain]
  | case3 elem ih => exact ih
  | case4 elem ih => exact ih
  | case5 => rfl

/-- **Flattening sees through borrows and parentheses.** A type is flattened to the same tokens when
all borrows and parentheses in it are taken away, and those and unary operators around the lengths of
arrays. No token is empty, and an array has one token at most. Two types that are the same down to
the segments of the first generic argument are flattened to the same tokens, whatever is below these
segments. -/
theorem flattening_sees_through_borrows (type : TypeRef) :
    ofType type.unborrowed = ofType type ∧
      (∀ token ∈ (ofType type).tokens, token ≠ "") ∧
      (∀ elem len, type.unborrowed = .array elem len → (ofType type).tokens.length ≤ 1) ∧
      ∀ second : TypeRef, second.cut = type.cut → ofType second = ofType type := by
  refine ⟨ofType_unborrowed type, fun token => ne_of_mem_ofType, fun elem len harray => ?_,
    fun second hcut => ?_⟩
  · rw [← ofType_unborrowed, harray, ofType]
    exact Option.length_toList_le
  · rw [← ofType_cut second, hcut, ofType_cut]

/-- The type `&[(&u8); (*N)]` is `[u8; N]`, and flattened like it. -/
example :
    let byte : TypeRef := .path ⟨[⟨⟨"u8"⟩, .none⟩]⟩
    let size : Expr := .path ⟨[⟨⟨"N"⟩, .none⟩]⟩
    let type : TypeRef :=
      .reference (.array (.paren (.reference byte)) (.paren (.unary size)))
    type.unborrowed = .array byte size ∧ (ofType type).tokens = ["u8;N"] := by
  cbv

end TypePath

end AbiRecovery
