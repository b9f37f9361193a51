import AbiRecovery.Program.AccountRole
import Mathlib.Data.List.Basic

/-!
# Calls of a role's constructor

An `AccountCall` is a call with any tokens for the key and one way to write it: with the separator
`::` as one token or as two, with any delimiter around the arguments, and with the flag as a word or
as a literal. Its role is that of the constructor with the tokens of the arguments
(`ofTokens_tokens`). Without a comma after the last argument it signs as the call says
(`ofTokens_plain`).

A token does not change those that are there already, unless a colon is the newest of them
(`pushStream_older`). The name of the constructor stands between the separator and the arguments, so
the tokens of a call are those of its parts.
-/

namespace AbiRecovery

open AbiRecovery.Tree

namespace Lexeme

theorem pushStream_append (tokens : List Lexeme) (first second : List TokenTree) :
    pushStream tokens (first ++ second) = pushStream (pushStream tokens first) second := by
  induction first generalizing tokens with
  | nil => rfl
  | cons tree first ih => exact ih (pushTree tokens tree)

theorem pushPunct_of_ne {op : String} (h : op ≠ ":") (tokens : List Lexeme) :
    pushPunct op tokens = .punct op :: tokens := by
  unfold pushPunct
  split
  · rw [if_neg h]
  · rfl

/-- A punctuation does not change what is there already, unless a colon is the newest of it. -/
theorem pushPunct_older {older : List Lexeme} (h : older.head? ≠ some (.punct ":")) (op : String)
    (tokens : List Lexeme) : pushPunct op (tokens ++ older) = pushPunct op tokens ++ older := by
  cases tokens with
  | nil =>
    unfold pushPunct
    split
    · next heq =>
      rw [List.nil_append] at heq
      rw [heq] at h
      exact absurd rfl h
    · rfl
  | cons token tokens =>
    by_cases htoken : token = .punct ":"
    · subst htoken
      simp only [pushPunct, List.cons_append]
      split_ifs <;> rfl
    · unfold pushPunct
      split <;> simp_all

mutual

theorem pushTree_older {older : List Lexeme} (h : older.head? ≠ some (.punct ":"))
    (tokens : List Lexeme) :
    ∀ tree : TokenTree, pushTree (tokens ++ older) tree = pushTree tokens tree ++ older
  | .ident _ => rfl
  | .literal _ => rfl
  | .punct op => pushPunct_older h op tokens
  | .group _ stream => pushStream_older h tokens stream
  | .other => rfl

theorem pushStream_older {older : List Lexeme} (h : older.head? ≠ some (.punct ":"))
    (tokens : List Lexeme) :
    ∀ stream : List TokenTree,
      pushStream (tokens ++ older) stream = pushStream tokens stream ++ older
  | [] => rfl
  | tree :: stream => by
    rw [pushStream, pushTree_older h tokens tree, pushStream_older h (pushTree tokens tree) stream,
      pushStream]

end

end Lexeme

theorem AccountRole.isSigner_constructed {args : List Lexeme} {last : Lexeme}
    (h : args.getLast? = some last) (isWritable : Bool) :
    (AccountRole.constructed isWritable args).isSigner = last.isTrue := by
  simp only [AccountRole.constructed, h]

/-- A call of a role's constructor, with any tokens for the key, and how it is written. -/
structure AccountCall where
  isWritable : Bool
  key : List TokenTree
  isSigner : Bool
  /-- Whether the separator of the path is a single token. -/
  joint : Bool
  /-- The delimiter around the arguments. -/
  delimiter : String
  /-- Whether the last argument is a literal, and not a word. -/
  literalFlag : Bool

namespace AccountCall

/-- The constructor of a writable account, or of one that is only read. -/
def constructor (call : AccountCall) : String :=
  if call.isWritable then "new" else "new_readonly"

/-- The last argument. -/
def flag (call : AccountCall) : TokenTree :=
  let text := if call.isSigner then "true" else "false"
  if call.literalFlag then .literal text else .ident text

/-- The arguments, maybe with a comma after the last one. -/
def arguments (call : AccountCall) (trailing : Bool) : List TokenTree :=
  call.key ++ .punct "," :: call.flag :: if trailing then [.punct ","] else []

/-- A call as it is written: `AccountMeta::new(key, true)`. -/
def tokens (call : AccountCall) (trailing : Bool) : List TokenTree :=
  [.ident "AccountMeta"] ++ (if call.joint then [.punct "::"] else [.punct ":", .punct ":"]) ++
    [.ident call.constructor, .group call.delimiter (call.arguments trailing)]

/-- The token of the last argument. -/
def flagToken (call : AccountCall) : Lexeme :=
  let text := if call.isSigner then "true" else "false"
  if call.literalFlag then .literal text else .ident text

theorem isTrue_flagToken (call : AccountCall) : call.flagToken.isTrue = call.isSigner := by
  unfold flagToken
  cases call.isSigner <;> cases call.literalFlag <;> rfl

theorem pushTree_flag (call : AccountCall) (tokens : List Lexeme) :
    Lexeme.pushTree tokens call.flag = call.flagToken :: tokens := by
  unfold flag flagToken
  cases call.literalFlag <;> rfl

theorem ofStream_arguments (call : AccountCall) (trailing : Bool) :
    Lexeme.ofStream (call.arguments trailing) =
      Lexeme.ofStream call.key ++
        .punct "," :: call.flagToken :: if trailing then [.punct ","] else [] := by
  unfold Lexeme.ofStream arguments
  rw [Lexeme.pushStream_append, Lexeme.pushStream, Lexeme.pushTree,
    Lexeme.pushPunct_of_ne (by decide), Lexeme.pushStream, pushTree_flag]
  cases trailing with
  | false => simp [Lexeme.pushStream]
  | true => simp [Lexeme.pushStream, Lexeme.pushTree, Lexeme.pushPunct_of_ne]

theorem ofStream_tokens (call : AccountCall) (trailing : Bool) :
    Lexeme.ofStream (call.tokens trailing) =
      .ident "AccountMeta" :: .punct "::" :: .ident call.constructor ::
        Lexeme.ofStream (call.arguments trailing) := by
  -- the name stands between the separator and the arguments, so no colons of theirs are joined
  have hname : [Lexeme.ident call.constructor, .punct "::", .ident "AccountMeta"].head? ≠
      some (.punct ":") := by simp
  have harguments := Lexeme.pushStream_older hname [] (call.arguments trailing)
  unfold Lexeme.ofStream tokens
  cases call.joint <;>
    simpa [Lexeme.pushStream, Lexeme.pushTree, Lexeme.pushPunct] using harguments

theorem comma_notMem_tokens (call : AccountCall) (trailing : Bool) :
    TokenTree.punct "," ∉ call.tokens trailing := by
  unfold tokens
  split_ifs <;> simp

theorem ofTokens_tokens (call : AccountCall) (trailing : Bool) :
    AccountRole.ofTokens (Lexeme.ofStream (call.tokens trailing)) =
      AccountRole.constructed call.isWritable (Lexeme.ofStream (call.arguments trailing)) := by
  rw [ofStream_tokens, constructor]
  cases call.isWritable <;> rfl

theorem ofTokens_plain (call : AccountCall) :
    AccountRole.ofTokens (Lexeme.ofStream (call.tokens false)) =
      ⟨AccountRole.keyName? (Lexeme.ofStream call.key ++ [.punct ",", call.flagToken]),
        call.isWritable, call.isSigner⟩ := by
  have hlast : (Lexeme.ofStream call.key ++ [.punct ",", call.flagToken]).getLast? =
      some call.flagToken := by simp
  have hsigner := AccountRole.isSigner_constructed hlast call.isWritable
  rw [call.isTrue_flagToken] at hsigner
  rw [ofTokens_tokens, ofStream_arguments]
  exact congrArg (AccountRole.mk _ _) hsigner

end AccountCall

end AbiRecovery
