import AbiRecovery.Tree.Node

/-!
# The elements of a token stream

The tokens between the brackets of a macro call are cut at the commas of the outermost level. Inside
a piece the brackets of groups are dropped, and two colons in a row become one separator. A piece
without any token is no element.
-/

namespace AbiRecovery

open AbiRecovery.Tree

/-- A token of an element, with the groups around it taken away. -/
inductive Lexeme where
  | ident (text : String)
  | punct (op : String)
  | literal (text : String)
deriving DecidableEq

namespace Lexeme

/-- Whether a token is the word `true`. -/
def isTrue : Lexeme → Bool
  | ident text => text = "true"
  | literal text => text = "true"
  | punct _ => false

/-- The text of an identifier. -/
def ident? : Lexeme → Option String
  | ident text => some text
  | _ => none

/-- Adds a punctuation to tokens that are given newest first. Two colons in a row are one
separator. -/
def pushPunct (op : String) (tokens : List Lexeme) : List Lexeme :=
  match tokens with
  | .punct ":" :: rest => if op = ":" then .punct "::" :: rest else .punct op :: tokens
  | _ => .punct op :: tokens

mutual

/-- Adds the tokens of a tree to tokens that are given newest first. -/
def pushTree (tokens : List Lexeme) : TokenTree → List Lexeme
  | .ident text => .ident text :: tokens
  | .literal text => .literal text :: tokens
  | .punct op => pushPunct op tokens
  | .group _ stream => pushStream tokens stream
  | .other => tokens

/-- Adds the tokens of several trees to tokens that are given newest first. -/
def pushStream (tokens : List Lexeme) : List TokenTree → List Lexeme
  | [] => tokens
  | tree :: stream => pushStream (pushTree tokens tree) stream

end

/-- The tokens of a stream, with all groups taken away. -/
def ofStream (stream : List TokenTree) : List Lexeme :=
  (pushStream [] stream).reverse

/-- The pieces of a stream between the commas of its outermost level. -/
def splitAtCommas : List TokenTree → List (List TokenTree)
  | [] => [[]]
  | .punct "," :: stream => [] :: splitAtCommas stream
  | tree :: stream =>
    match splitAtCommas stream with
    | piece :: pieces => (tree :: piece) :: pieces
    | [] => [[tree]]

/-- The tokens of the elements of a stream. A piece without tokens is no element. -/
def elements (stream : List TokenTree) : List (List Lexeme) :=
  ((splitAtCommas stream).map ofStream).filter (· ≠ [])

end Lexeme

end AbiRecovery
