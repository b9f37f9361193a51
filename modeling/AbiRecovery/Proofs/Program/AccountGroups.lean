import AbiRecovery.Proofs.Program.AccountPositions
import Mathlib.Logic.Relation

/-!
# Groups in account streams

What the roles of a stream are read from is its **outline**: the tokens between the commas of its
outermost level, in the order of the text, with the brackets of groups taken away
(`Lexeme.outline`, `AccountRole.ofStream_eq_outline`). Tokens are added to an element one by one,
with a look back at the newest one, and that look goes through brackets. So two colons are joined
when nothing but brackets is between them, and this is the same as to take the brackets away first
and then to join the colons in pairs from the front (`Lexeme.ofStream_eq_joinColons`).

A stream is `Grouped` when brackets are put around a part of it, at any depth, and this part has no
comma of its own outermost level. Then the outline stays as it is (`Grouped.outline_eq`), and so do
the roles.
-/

namespace AbiRecovery

open AbiRecovery.Tree

namespace Tree

mutual

/-- The **tokens of a tree**, in the order of the text and without the brackets of groups. -/
def TokenTree.leaves : TokenTree → List Lexeme
  | .ident text => [.ident text]
  | .punct op => [.punct op]
  | .literal text => [.literal text]
  | .group _ stream => TokenTree.leavesAll stream
  | .other => []

/-- The tokens of several trees. -/
def TokenTree.leavesAll : List TokenTree → List Lexeme
  | [] => []
  | tree :: stream => tree.leaves ++ TokenTree.leavesAll stream

end

/-- One part of a stream is **put in a group**, with any delimiter. The part has no comma of its own
outermost level; it may be empty, and it may stand inside other groups. -/
inductive Grouped : List TokenTree → List TokenTree → Prop
  | here (before part after : List TokenTree) (delimiter : String) : .punct "," ∉ part →
    Grouped (before ++ part ++ after) (before ++ [.group delimiter part] ++ after)
  | inside (before after : List TokenTree) (delimiter : String) {stream stream' : List TokenTree} :
    Grouped stream stream' →
      Grouped (before ++ [.group delimiter stream] ++ after)
        (before ++ [.group delimiter stream'] ++ after)

theorem TokenTree.leavesAll_append (first second : List TokenTree) :
    TokenTree.leavesAll (first ++ second) =
      TokenTree.leavesAll first ++ TokenTree.leavesAll second := by
  induction first with
  | nil => rfl
  | cons tree first ih =>
    rw [List.cons_append, TokenTree.leavesAll, ih, TokenTree.leavesAll, List.append_assoc]

theorem TokenTree.leavesAll_group (delimiter : String) (stream : List TokenTree) :
    TokenTree.leavesAll [.group delimiter stream] = TokenTree.leavesAll stream := by
  rw [TokenTree.leavesAll, TokenTree.leaves, TokenTree.leavesAll, List.append_nil]

theorem TokenTree.comma_notMem_group (delimiter : String) (stream : List TokenTree) :
    .punct "," ∉ [TokenTree.group delimiter stream] := by simp

theorem Grouped.leavesAll_eq {stream stream' : List TokenTree} (h : Grouped stream stream') :
    TokenTree.leavesAll stream' = TokenTree.leavesAll stream := by
  induction h with
  | here before part after delimiter _ =>
    simp only [TokenTree.leavesAll_append, TokenTree.leavesAll_group]
  | inside before after delimiter _ ih =>
    simp only [TokenTree.leavesAll_append, TokenTree.leavesAll_group, ih]

end Tree

namespace Lexeme

/-! ### Colons -/

/-- Two colons in a row are one separator. They are joined in pairs, from the front. -/
def joinColons : List Lexeme → List Lexeme
  | .punct ":" :: .punct ":" :: tokens => .punct "::" :: joinColons tokens
  | token :: tokens => token :: joinColons tokens
  | [] => []

/-- Adds a token to tokens that are given newest first. -/
def push (tokens : List Lexeme) : Lexeme → List Lexeme
  | .punct op => pushPunct op tokens
  | token => token :: tokens

mutual

theorem pushTree_eq_foldl (tokens : List Lexeme) :
    ∀ tree : TokenTree, pushTree tokens tree = tree.leaves.foldl push tokens
  | .ident _ => rfl
  | .punct _ => rfl
  | .literal _ => rfl
  | .group _ stream => pushStream_eq_foldl tokens stream
  | .other => rfl

theorem pushStream_eq_foldl (tokens : List Lexeme) :
    ∀ stream : List TokenTree,
      pushStream tokens stream = (TokenTree.leavesAll stream).foldl push tokens
  | [] => rfl
  | tree :: stream => by
    rw [pushStream, pushTree_eq_foldl tokens tree, pushStream_eq_foldl _ stream,
      TokenTree.leavesAll, List.foldl_append]

end

theorem push_of_ne {tokens : List Lexeme} {token : Lexeme}
    (h : tokens.head? = some (.punct ":") → token ≠ .punct ":") :
    push tokens token = token :: tokens := by
  cases token with
  | ident text | literal text => rfl
  | punct op =>
    by_cases hop : op = ":"
    · subst hop
      exact pushPunct_older (fun hhead => h hhead rfl) ":" []
    · exact pushPunct_of_ne hop tokens

/-- **Pushing joins colons in pairs.** Between the tokens that are there and those that come there
are no two colons to be joined, and this is kept from one pair to the next. -/
theorem foldl_push {older : List Lexeme} (tokens : List Lexeme)
    (h : older.head? = some (.punct ":") → tokens.head? ≠ some (.punct ":")) :
    tokens.foldl push older = (joinColons tokens).reverse ++ older := by
  fun_induction joinColons tokens generalizing older with
  | case1 tokens ih =>
    have hfirst : push older (.punct ":") = .punct ":" :: older :=
      push_of_ne fun hhead => absurd rfl (h hhead)
    have hpair : push (.punct ":" :: older) (.punct ":") = .punct "::" :: older := rfl
    rw [List.foldl_cons, List.foldl_cons, hfirst, hpair, ih (by simp)]
    simp
  | case2 token tokens hpair ih =>
    have hpush : push older token = token :: older :=
      push_of_ne fun hhead heq => h hhead (congrArg some heq)
    rw [List.foldl_cons, hpush, ih]
    · simp
    · -- A colon that is left alone has no colon behind it.
      intro hhead hnext
      obtain ⟨rest, rfl⟩ := List.head?_eq_some_iff.mp hnext
      exact hpair rest (Option.some.inj hhead) rfl
  | case3 => rfl

theorem ofStream_eq_joinColons (stream : List TokenTree) :
    ofStream stream = joinColons (TokenTree.leavesAll stream) := by
  rw [ofStream, pushStream_eq_foldl, foldl_push _ (by simp), List.append_nil, List.reverse_reverse]

theorem joinColons_eq_nil_iff {tokens : List Lexeme} : joinColons tokens = [] ↔ tokens = [] := by
  fun_cases joinColons tokens <;> simp

/-! ### Outlines -/

/-- The **outline** of a stream: the tokens between the commas of its outermost level. -/
def outline (stream : List TokenTree) : List (List Lexeme) :=
  (splitAtCommas stream).map TokenTree.leavesAll

theorem outline_comma (stream : List TokenTree) :
    outline (.punct "," :: stream) = [] :: outline stream := rfl

theorem outline_cons {tree : TokenTree} (h : tree ≠ .punct ",") (stream : List TokenTree) :
    outline (tree :: stream) = (outline stream).modifyHead (tree.leaves ++ ·) := by
  have hne : splitAtCommas stream ≠ [] := (segmented_iff.mpr rfl).ne_nil
  obtain ⟨piece, pieces, hpieces⟩ := List.exists_cons_of_ne_nil hne
  have hsplit : splitAtCommas (tree :: stream) = (tree :: piece) :: pieces := by
    rw [splitAtCommas.eq_3 _ _ h, hpieces]
  rw [outline, outline, hsplit, hpieces]
  rfl

theorem outline_append {part : List TokenTree} (h : .punct "," ∉ part) (stream : List TokenTree) :
    outline (part ++ stream) = (outline stream).modifyHead (TokenTree.leavesAll part ++ ·) := by
  induction part with
  | nil => cases houtline : outline stream <;> simp [TokenTree.leavesAll, houtline]
  | cons tree part ih =>
    rw [List.mem_cons, not_or] at h
    rw [List.cons_append, outline_cons (Ne.symm h.1), ih h.2, TokenTree.leavesAll]
    cases outline stream <;> simp

theorem outline_append_congr {stream stream' : List TokenTree} (h : outline stream' = outline stream)
    (before : List TokenTree) : outline (before ++ stream') = outline (before ++ stream) := by
  induction before with
  | nil => exact h
  | cons tree before ih =>
    by_cases hcomma : tree = .punct ","
    · subst hcomma
      rw [List.cons_append, List.cons_append, outline_comma, outline_comma, ih]
    · rw [List.cons_append, List.cons_append, outline_cons hcomma, outline_cons hcomma, ih]

/-- A part may be exchanged for another one with the same tokens, if both have no commas. -/
theorem outline_exchange {part part' : List TokenTree} (h : .punct "," ∉ part)
    (h' : .punct "," ∉ part') (hleaves : TokenTree.leavesAll part' = TokenTree.leavesAll part)
    (before after : List TokenTree) :
    outline (before ++ part' ++ after) = outline (before ++ part ++ after) := by
  rw [List.append_assoc, List.append_assoc]
  refine outline_append_congr ?_ before
  rw [outline_append h', outline_append h, hleaves]

theorem elements_eq_outline (stream : List TokenTree) :
    elements stream = ((outline stream).map joinColons).filter (· ≠ []) := by
  rw [elements, outline, List.map_map]
  congr 2
  funext segment
  exact ofStream_eq_joinColons segment

end Lexeme

/-- **Groups do not show** in the outline. -/
theorem Tree.Grouped.outline_eq {stream stream' : List TokenTree} (h : Grouped stream stream') :
    Lexeme.outline stream' = Lexeme.outline stream := by
  cases h with
  | here before part after delimiter hcomma =>
    exact Lexeme.outline_exchange hcomma (TokenTree.comma_notMem_group delimiter part)
      (TokenTree.leavesAll_group delimiter part) before after
  | @inside before after delimiter inner inner' hinner =>
    refine Lexeme.outline_exchange (TokenTree.comma_notMem_group delimiter inner)
      (TokenTree.comma_notMem_group delimiter inner') ?_ before after
    rw [TokenTree.leavesAll_group, TokenTree.leavesAll_group, hinner.leavesAll_eq]

namespace AccountRole

/-! ### Roles -/

/-- **The roles of a stream** are read from its outline. -/
theorem ofStream_eq_outline (stream : List TokenTree) :
    ofStream stream =
      (((Lexeme.outline stream).map Lexeme.joinColons).filter (· ≠ [])).map ofTokens := by
  rw [ofStream, Lexeme.elements_eq_outline]

theorem ofStream_eq_of_eqvGen {stream stream' : List TokenTree}
    (h : Relation.EqvGen Grouped stream stream') : ofStream stream' = ofStream stream := by
  induction h with
  | rel stream stream' hgrouped =>
    rw [ofStream_eq_outline, ofStream_eq_outline, hgrouped.outline_eq]
  | refl stream => rfl
  | symm stream stream' _ ih => exact ih.symm
  | trans stream middle stream' _ _ hfirst hsecond => exact hsecond.trans hfirst

theorem ofStream_segment {segment : List TokenTree} (h : .punct "," ∉ segment) :
    ofStream segment =
      if TokenTree.leavesAll segment = [] then []
      else [ofTokens (Lexeme.joinColons (TokenTree.leavesAll segment))] := by
  rw [ofStream_eq_outline, Lexeme.outline, Lexeme.splitAtCommas_of_no_comma h]
  by_cases hleaves : TokenTree.leavesAll segment = []
  · simp [hleaves, Lexeme.joinColons]
  · simp [hleaves, Lexeme.joinColons_eq_nil_iff]

/-- **Account streams are read piece by piece, whatever their groups.** The roles of two streams with
a comma between them are those of the one and then those of the other. They do not change when parts
of a stream that have no comma of their own outermost level are put in groups, or when such groups
are taken away, at any depth and as often as one likes. And a stream without a comma of its outermost
level has one role at most, which is read from its tokens, at every depth and in the order of the
text, with two colons in a row as one separator. -/
theorem streams_read_piecewise (stream : List TokenTree) :
    (∀ rest, ofStream (stream ++ [.punct ","] ++ rest) = ofStream stream ++ ofStream rest) ∧
      (∀ stream', Relation.EqvGen Grouped stream stream' → ofStream stream' = ofStream stream) ∧
      (.punct "," ∉ stream →
        ofStream stream =
          if TokenTree.leavesAll stream = [] then []
          else [ofTokens (Lexeme.joinColons (TokenTree.leavesAll stream))]) := by
  refine ⟨fun rest => ?_, fun stream' => ofStream_eq_of_eqvGen, ofStream_segment⟩
  rw [List.append_assoc, List.singleton_append, ofStream_append_comma]

/-- The stream `AccountMeta::new(payer, true)`. -/
def payerStream : List TokenTree :=
  [.ident "AccountMeta", .punct ":", .punct ":", .ident "new",
    .group "Parenthesis" [.ident "payer", .punct ",", .ident "true"]]

/-- The same stream, with brackets that divide the separator and brackets around the key, inside of
those around the arguments. -/
def payerRegrouped : List TokenTree :=
  [.group "None" [.ident "AccountMeta", .punct ":"], .punct ":", .ident "new",
    .group "Parenthesis" [.group "Brace" [.ident "payer"], .punct ",", .ident "true"]]

theorem eqvGen_payerStream : Relation.EqvGen Grouped payerStream payerRegrouped := by
  have hkey : Grouped [.ident "payer", .punct ",", .ident "true"]
      [.group "Brace" [.ident "payer"], .punct ",", .ident "true"] :=
    .here [] [.ident "payer"] [.punct ",", .ident "true"] "Brace" (by simp)
  have hpath : Grouped payerStream _ :=
    .here [] [.ident "AccountMeta", .punct ":"] (payerStream.drop 2) "None" (by simp)
  exact .trans _ _ _ (.rel _ _ hpath)
    (.rel _ _ (.inside [.group "None" [.ident "AccountMeta", .punct ":"], .punct ":", .ident "new"]
      [] "Parenthesis" hkey))

theorem payer_read_piecewise :
    Relation.EqvGen Grouped payerStream payerRegrouped ∧ .punct "," ∉ payerRegrouped ∧
      ofStream payerRegrouped = ofStream payerStream ∧
      ofStream payerRegrouped = [⟨some "payer", true, true⟩] ∧
      ofStream (payerRegrouped ++ [.punct ","] ++ payerStream) =
        [⟨some "payer", true, true⟩, ⟨some "payer", true, true⟩] := by
  have hcomma : .punct "," ∉ payerRegrouped := by simp [payerRegrouped]
  have hregrouped := (streams_read_piecewise payerStream).2.1 _ eqvGen_payerStream
  have hrole : ofStream payerRegrouped = [⟨some "payer", true, true⟩] :=
    (streams_read_piecewise payerRegrouped).2.2 hcomma
  refine ⟨eqvGen_payerStream, hcomma, hregrouped, hrole, ?_⟩
  rw [(streams_read_piecewise payerRegrouped).1, ← hregrouped, hrole]
  rfl

/-- Brackets around a comma of the outermost level do show: two accounts become one. -/
example :
    (ofStream [.ident "payer", .punct ",", .ident "vault"]).length = 2 ∧
      (ofStream [.group "None" [.ident "payer", .punct ",", .ident "vault"]]).length = 1 := by
  decide

end AccountRole

end AbiRecovery
