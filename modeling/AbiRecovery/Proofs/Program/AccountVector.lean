import AbiRecovery.Proofs.Program.AccountCall
import Mathlib.Data.List.Forall2

/-!
# Account vectors as they are written

An `AccountSpec` is an account with one way to write it as a call (`AccountSpec.call`), with or
without an operator in front of the name. The roles that are read from a vector of written accounts
are those of the accounts, in order (`ofStream_vector`).

A comma inside the arguments of an element stands in a group, so only the commas between elements
cut the stream (`elements_vector`). What is read from a vector is all of its accounts and nothing of
how they are written (`ofStream_joined`, `map_role_eq_iff`).
-/

namespace AbiRecovery

open AbiRecovery.Tree

/-- An operator in front of a key. -/
inductive Sigil where
  | dereference
  | borrow
deriving DecidableEq

/-- The token of an operator. -/
def Sigil.op : Sigil → String
  | dereference => "*"
  | borrow => "&"

/-- An account of a vector, and how it is written. -/
structure AccountSpec where
  name : String
  isWritable : Bool
  isSigner : Bool
  sigil : Option Sigil
  /-- Whether the separator of the path is a single token. -/
  joint : Bool
  /-- The delimiter around the arguments. -/
  delimiter : String
  /-- Whether the last argument is a literal, and not a word. -/
  literalFlag : Bool
deriving DecidableEq

namespace AccountSpec

/-- The role of an account. -/
def role (spec : AccountSpec) : AccountRole :=
  ⟨some spec.name, spec.isWritable, spec.isSigner⟩

/-- The call of an account: its key is the name, with the operator in front of it. -/
def call (spec : AccountSpec) : AccountCall :=
  { isWritable := spec.isWritable
    key := (spec.sigil.toList.map fun sigil => .punct sigil.op) ++ [.ident spec.name]
    isSigner := spec.isSigner
    joint := spec.joint
    delimiter := spec.delimiter
    literalFlag := spec.literalFlag }

/-- An account as it is written: `AccountMeta::new(name, true)`. -/
def tokens (spec : AccountSpec) : List TokenTree := spec.call.tokens false

theorem keyName?_call (spec : AccountSpec) (rest : List Lexeme) :
    AccountRole.keyName? (Lexeme.ofStream spec.call.key ++ .punct "," :: rest) =
      some spec.name := by
  obtain ⟨name, isWritable, isSigner, sigil, joint, delimiter, literalFlag⟩ := spec
  rcases sigil with _ | _ | _ <;> rfl

theorem ofTokens_tokens (spec : AccountSpec) :
    AccountRole.ofTokens (Lexeme.ofStream spec.tokens) = spec.role := by
  rw [tokens, spec.call.ofTokens_plain, spec.keyName?_call]
  rfl

end AccountSpec

/-! ### Vectors -/

namespace Lexeme

open Classical in
theorem splitAtCommas_eq_splitOn (stream : List TokenTree) :
    splitAtCommas stream = stream.splitOn (.punct ",") := by
  fun_induction splitAtCommas stream with
  | case1 => rfl
  | case2 stream ih => rw [List.splitOn_cons_eq_if_modifyHead, if_pos (by simp), ih]
  | case3 tree stream hcomma piece pieces hpieces ih =>
    rw [List.splitOn_cons_eq_if_modifyHead, if_neg (by simpa using hcomma), ← ih, hpieces]
    rfl
  | case4 tree stream hcomma hpieces ih =>
    rw [hpieces] at ih
    exact absurd ih.symm (List.splitOn_ne_nil _ _)

theorem splitAtCommas_of_no_comma {piece : List TokenTree} (h : TokenTree.punct "," ∉ piece) :
    splitAtCommas piece = [piece] := by
  classical
  rw [splitAtCommas_eq_splitOn, List.splitOn_eq_singleton h]

/-- No element reaches over a comma of the outermost level. -/
theorem elements_append_comma (first second : List TokenTree) :
    elements (first ++ .punct "," :: second) = elements first ++ elements second := by
  classical
  unfold elements
  rw [splitAtCommas_eq_splitOn, List.splitOn_append_cons_self, List.map_append, List.filter_append,
    ← splitAtCommas_eq_splitOn, ← splitAtCommas_eq_splitOn]

end Lexeme

namespace AccountSpec

/-- Written accounts with commas between them, and maybe one after the last. -/
def vector (trailing : Bool) : List AccountSpec → List TokenTree
  | [] => []
  | [spec] => if trailing then spec.tokens ++ [.punct ","] else spec.tokens
  | spec :: next :: specs => spec.tokens ++ .punct "," :: vector trailing (next :: specs)

theorem elements_tokens (spec : AccountSpec) :
    Lexeme.elements spec.tokens = [Lexeme.ofStream spec.tokens] := by
  unfold Lexeme.elements tokens
  rw [Lexeme.splitAtCommas_of_no_comma (spec.call.comma_notMem_tokens false), List.map_singleton,
    spec.call.ofStream_tokens]
  simp

theorem elements_tokens_append (spec : AccountSpec) (stream : List TokenTree) :
    Lexeme.elements (spec.tokens ++ .punct "," :: stream) =
      Lexeme.ofStream spec.tokens :: Lexeme.elements stream := by
  rw [Lexeme.elements_append_comma, elements_tokens, List.singleton_append]

theorem elements_vector (trailing : Bool) (specs : List AccountSpec) :
    Lexeme.elements (vector trailing specs) =
      specs.map fun spec => Lexeme.ofStream spec.tokens := by
  fun_induction vector trailing specs with
  | case1 => rfl
  | case2 spec htrailing => exact elements_tokens_append spec []
  | case3 spec htrailing => exact elements_tokens spec
  | case4 spec next specs ih =>
    rw [elements_tokens_append, ih]
    rfl

/-- **Account vectors**: the roles of a written vector are those of its accounts, in order. -/
theorem ofStream_vector (trailing : Bool) (specs : List AccountSpec) :
    AccountRole.ofStream (vector trailing specs) = specs.map role := by
  unfold AccountRole.ofStream
  rw [elements_vector, List.map_map]
  exact List.map_congr_left fun spec _ => ofTokens_tokens spec

/-! ### Reading accounts back -/

/-- An account, apart from how it is written. -/
def account (spec : AccountSpec) : String × Bool × Bool :=
  (spec.name, spec.isWritable, spec.isSigner)

/-- Written accounts joined by commas, maybe with one more comma at the end. -/
def joined (trailing : Bool) (specs : List AccountSpec) : List TokenTree :=
  [TokenTree.punct ","].intercalate (specs.map tokens) ++ if trailing then [.punct ","] else []

theorem joined_eq_vector (trailing : Bool) {specs : List AccountSpec} (h : specs ≠ []) :
    joined trailing specs = vector trailing specs := by
  unfold joined
  fun_induction vector trailing specs with
  | case1 => exact absurd rfl h
  | case2 spec htrailing => simp [htrailing]
  | case3 spec htrailing => simp [htrailing]
  | case4 spec next specs ih =>
    rw [← ih (List.cons_ne_nil next specs)]
    simp [List.intercalate_cons_cons]

theorem ofStream_joined (trailing : Bool) (specs : List AccountSpec) :
    AccountRole.ofStream (joined trailing specs) = specs.map role := by
  by_cases hempty : specs = []
  · -- A comma alone is no element.
    subst hempty
    cases trailing <;> rfl
  · rw [joined_eq_vector trailing hempty, ofStream_vector]

theorem role_eq_iff {spec spec' : AccountSpec} :
    spec.role = spec'.role ↔ spec.account = spec'.account := by
  simp [role, account]

theorem map_role_eq_iff {specs specs' : List AccountSpec} :
    specs.map role = specs'.map role ↔ specs.map account = specs'.map account := by
  simp only [← List.forall₂_eq_eq_eq, List.forall₂_map_left_iff, List.forall₂_map_right_iff,
    role_eq_iff]

/-- **Written accounts are read back.** Accounts with any names are written as calls of the
constructor, each in any of the ways to write it, and joined by commas with or without one at the
end. Then the roles are the names, writable flags and signer flags of the accounts, in order. So two
streams of this kind have the same roles exactly if they are written for the same accounts. -/
theorem written_accounts_round_trip (trailing : Bool) (specs : List AccountSpec) :
    AccountRole.ofStream (joined trailing specs) =
        specs.map (fun spec => ⟨some spec.name, spec.isWritable, spec.isSigner⟩) ∧
      ∀ (trailing' : Bool) (specs' : List AccountSpec),
        AccountRole.ofStream (joined trailing' specs') =
            AccountRole.ofStream (joined trailing specs) ↔
          specs'.map account = specs.map account := by
  refine ⟨ofStream_joined trailing specs, fun trailing' specs' => ?_⟩
  rw [ofStream_joined, ofStream_joined, map_role_eq_iff]

/-- The words of a call may be names of accounts as well. -/
example :
    AccountRole.ofStream (joined true
      [⟨"true", false, false, none, false, "Parenthesis", false⟩,
        ⟨"AccountMeta", true, true, some .dereference, true, "None", false⟩,
        ⟨"new", false, true, some .borrow, false, "Parenthesis", true⟩]) =
      [⟨some "true", false, false⟩, ⟨some "AccountMeta", true, true⟩,
        ⟨some "new", false, true⟩] := by
  decide

end AccountSpec

end AbiRecovery
