import AbiRecovery.Proofs.Program.AccountVector

/-!
# The places of the roles

A stream is cut at the commas of its outermost level into segments, in exactly one way
(`Segmented`, `segmented_iff`), and its roles are those of the segments, in order
(`ofStream_append_comma`, `ofStream_eq`).

A segment has a role exactly if there is a token in it, at whatever depth (`HasToken`). One that
holds nothing but unrecognised trees and empty groups has none, so the roles after it move up.

In the arguments of a constructor the last token says whether the account signs. A comma after the
last argument takes that place and hides the flag, and the rest of the role stays as it is
(`constructed_trailing`).
-/

namespace AbiRecovery

open AbiRecovery.Tree

namespace Tree

/-- A tree **has a token**: it is one, or it is a group with one somewhere inside. -/
inductive TokenTree.HasToken : TokenTree → Prop
  | ident (text : String) : HasToken (.ident text)
  | punct (op : String) : HasToken (.punct op)
  | literal (text : String) : HasToken (.literal text)
  | group {delimiter : String} {stream : List TokenTree} {tree : TokenTree} (h : tree ∈ stream)
      (htoken : HasToken tree) : HasToken (.group delimiter stream)

theorem TokenTree.hasToken_group_iff {delimiter : String} {stream : List TokenTree} :
    (TokenTree.group delimiter stream).HasToken ↔ ∃ tree ∈ stream, tree.HasToken := by
  constructor
  · rintro (_ | _ | _ | ⟨h, htoken⟩)
    exact ⟨_, h, htoken⟩
  · rintro ⟨tree, h, htoken⟩
    exact .group h htoken

end Tree

namespace Lexeme

/-! ### Segments -/

/-- The **segments** of a stream: what is left of it between the commas of its outermost level. -/
structure Segmented (stream : List TokenTree) (segments : List (List TokenTree)) : Prop where
  ne_nil : segments ≠ []
  comma_notMem : ∀ segment ∈ segments, TokenTree.punct "," ∉ segment
  intercalate_eq : [TokenTree.punct ","].intercalate segments = stream

theorem comma_notMem_of_mem_splitAtCommas {stream segment : List TokenTree}
    (h : segment ∈ splitAtCommas stream) : TokenTree.punct "," ∉ segment := by
  fun_induction splitAtCommas stream generalizing segment with
  | case1 =>
    rw [List.mem_singleton] at h
    subst h
    exact List.not_mem_nil
  | case2 stream ih =>
    rcases List.mem_cons.mp h with rfl | h
    · exact List.not_mem_nil
    · exact ih h
  | case3 tree stream hcomma piece pieces hpieces ih =>
    rw [hpieces] at ih
    rcases List.mem_cons.mp h with rfl | h
    · rw [List.mem_cons, not_or]
      exact ⟨fun heq => hcomma heq.symm, ih List.mem_cons_self⟩
    · exact ih (List.mem_cons_of_mem _ h)
  | case4 tree stream hcomma hpieces ih =>
    rw [List.mem_singleton] at h
    subst h
    rw [List.mem_singleton]
    exact fun heq => hcomma heq.symm

/-- A stream has its segments in exactly one way. -/
theorem segmented_iff {stream : List TokenTree} {segments : List (List TokenTree)} :
    Segmented stream segments ↔ segments = splitAtCommas stream := by
  classical
  constructor
  · rintro ⟨hne, hcomma, rfl⟩
    rw [splitAtCommas_eq_splitOn, List.splitOn_intercalate _ hcomma hne]
  · rintro rfl
    refine ⟨?_, fun segment => comma_notMem_of_mem_splitAtCommas, ?_⟩
    · rw [splitAtCommas_eq_splitOn]
      exact List.splitOn_ne_nil _ _
    · rw [splitAtCommas_eq_splitOn, List.intercalate_splitOn]

/-! ### Tokens of a segment -/

mutual

theorem pushTree_ne_nil_iff (tokens : List Lexeme) :
    ∀ tree : TokenTree, pushTree tokens tree ≠ [] ↔ tokens ≠ [] ∨ tree.HasToken
  | .ident text => by simp [pushTree, TokenTree.HasToken.ident]
  | .literal text => by simp [pushTree, TokenTree.HasToken.literal]
  | .punct op => by
    have hpush : pushPunct op tokens ≠ [] := by
      unfold pushPunct
      split
      · split_ifs <;> simp
      · simp
    simp [pushTree, hpush, TokenTree.HasToken.punct]
  | .group _ stream => by
    rw [pushTree, pushStream_ne_nil_iff, TokenTree.hasToken_group_iff]
  | .other => by
    have hother : ¬ TokenTree.HasToken .other := by rintro ⟨⟩
    simp [pushTree, hother]

theorem pushStream_ne_nil_iff (tokens : List Lexeme) :
    ∀ stream : List TokenTree,
      pushStream tokens stream ≠ [] ↔ tokens ≠ [] ∨ ∃ tree ∈ stream, tree.HasToken
  | [] => by simp [pushStream]
  | tree :: stream => by
    rw [pushStream, pushStream_ne_nil_iff, pushTree_ne_nil_iff, or_assoc, List.exists_mem_cons_iff]

end

theorem ofStream_ne_nil_iff {stream : List TokenTree} :
    ofStream stream ≠ [] ↔ ∃ tree ∈ stream, tree.HasToken := by
  rw [ofStream, ne_eq, List.reverse_eq_nil_iff, ← ne_eq, pushStream_ne_nil_iff]
  simp

end Lexeme

instance : DecidablePred TokenTree.HasToken := fun tree =>
  decidable_of_iff (Lexeme.pushTree [] tree ≠ []) (by simp [Lexeme.pushTree_ne_nil_iff])

namespace AccountRole

/-! ### Roles of segments -/

/-- The role of a segment. -/
def ofSegment (segment : List TokenTree) : AccountRole :=
  ofTokens (Lexeme.ofStream segment)

theorem ofStream_append_comma (first second : List TokenTree) :
    ofStream (first ++ .punct "," :: second) = ofStream first ++ ofStream second := by
  rw [ofStream, Lexeme.elements_append_comma, List.map_append, ofStream, ofStream]

theorem ofStream_eq (stream : List TokenTree) :
    ofStream stream =
      ((Lexeme.splitAtCommas stream).filter fun segment =>
        ∃ tree ∈ segment, tree.HasToken).map ofSegment := by
  have hfilter : (fun segment : List TokenTree => decide (∃ tree ∈ segment, tree.HasToken)) =
      (fun tokens : List Lexeme => decide (tokens ≠ [])) ∘ Lexeme.ofStream := by
    funext segment
    simp only [Function.comp_apply, decide_eq_decide]
    exact Lexeme.ofStream_ne_nil_iff.symm
  rw [ofStream, Lexeme.elements, List.filter_map, List.map_map, ← hfilter]
  rfl

/-- **The roles of a stream, segment by segment.** A stream has its segments in exactly one way. The
roles are those of the segments that have a token, in order, each read from its own segment alone.
So there is a role for each segment that is not empty exactly if each of these has a token in it. -/
theorem roles_by_segment (stream : List TokenTree) :
    (∃! segments, Lexeme.Segmented stream segments) ∧
      ∀ segments, Lexeme.Segmented stream segments →
        ofStream stream =
            (segments.filter fun segment => ∃ tree ∈ segment, tree.HasToken).map ofSegment ∧
          ((ofStream stream).length = (segments.filter (· ≠ [])).length ↔
            ∀ segment ∈ segments, segment ≠ [] → ∃ tree ∈ segment, tree.HasToken) := by
  refine ⟨⟨Lexeme.splitAtCommas stream, Lexeme.segmented_iff.mpr rfl,
    fun segments => Lexeme.segmented_iff.mp⟩, fun segments h => ?_⟩
  rw [Lexeme.segmented_iff.mp h]
  refine ⟨ofStream_eq stream, ?_⟩
  -- A segment with a token is not empty, so the segments with a token are among the others.
  have hfilter : ((Lexeme.splitAtCommas stream).filter (· ≠ [])).filter
      (fun segment => ∃ tree ∈ segment, tree.HasToken) =
        (Lexeme.splitAtCommas stream).filter fun segment => ∃ tree ∈ segment, tree.HasToken := by
    rw [List.filter_filter]
    refine List.filter_congr fun segment _ => ?_
    cases segment <;> simp
  rw [ofStream_eq, List.length_map, ← hfilter, List.length_filter_eq_length_iff]
  simp

/-- A stream of two accounts, the first in two groups and after an unrecognised tree, with a comma
at its end. -/
def nestedFirst : List TokenTree :=
  [.other, .group "Parenthesis" [.group "None" [.ident "payer"]], .punct ",", .punct "*",
    .ident "vault", .punct ","]

theorem roles_of_nestedFirst :
    Lexeme.Segmented nestedFirst
        [[.other, .group "Parenthesis" [.group "None" [.ident "payer"]]],
          [.punct "*", .ident "vault"], []] ∧
      (ofStream nestedFirst).length = 2 := by
  have hsegmented : Lexeme.Segmented nestedFirst
      [[.other, .group "Parenthesis" [.group "None" [.ident "payer"]]],
        [.punct "*", .ident "vault"], []] := Lexeme.segmented_iff.mpr rfl
  exact ⟨hsegmented, ((roles_by_segment nestedFirst).2 _ hsegmented).2.mpr (by decide)⟩

/-- A stream whose second account is a tree of an unrecognised kind. -/
def unrecognisedSecond : List TokenTree :=
  [.ident "payer", .punct ",", .other, .punct ",", .ident "vault"]

/-- There are three segments, none of them empty, but the third account has the second place. -/
theorem unrecognised_account_shifts :
    let segments : List (List TokenTree) := [[.ident "payer"], [.other], [.ident "vault"]]
    Lexeme.Segmented unrecognisedSecond segments ∧
      (ofStream unrecognisedSecond).length ≠ (segments.filter (· ≠ [])).length ∧
      (ofStream unrecognisedSecond)[1]? = some (ofSegment [.ident "vault"]) ∧
      ofSegment [.ident "vault"] ≠ ofSegment [.other] := by
  exact ⟨Lexeme.segmented_iff.mpr rfl, by decide, by decide, by decide⟩

theorem ofStream_of_no_comma {segment : List TokenTree} (hcomma : TokenTree.punct "," ∉ segment)
    (htoken : ∃ tree ∈ segment, tree.HasToken) : ofStream segment = [ofSegment segment] := by
  rw [ofStream_eq, Lexeme.splitAtCommas_of_no_comma hcomma,
    List.filter_cons_of_pos (by simpa using htoken)]
  rfl

/-- A segment in a stream: with what stands before and after it, if anything does, and with a comma
in between. -/
def placed (before after : Option (List TokenTree)) (segment : List TokenTree) : List TokenTree :=
  before.elim [] (· ++ [.punct ","]) ++ segment ++ after.elim [] (.punct "," :: ·)

/-- A segment with a token has its role wherever it stands, and the others keep theirs. -/
theorem ofStream_placed {segment : List TokenTree} (hcomma : TokenTree.punct "," ∉ segment)
    (htoken : ∃ tree ∈ segment, tree.HasToken) (before after : Option (List TokenTree)) :
    ofStream (placed before after segment) =
      before.elim [] ofStream ++ ofSegment segment :: after.elim [] ofStream := by
  have hsegment := ofStream_of_no_comma hcomma htoken
  have hafter : ofStream (segment ++ after.elim [] (.punct "," :: ·)) =
      ofSegment segment :: after.elim [] ofStream := by
    cases after with
    | none => rw [Option.elim_none, List.append_nil, hsegment, Option.elim_none]
    | some rest => rw [Option.elim_some, ofStream_append_comma, hsegment, Option.elim_some,
        List.singleton_append]
  unfold placed
  cases before with
  | none => exact hafter
  | some first =>
    rw [Option.elim_some, List.append_assoc, List.append_assoc, List.singleton_append,
      ofStream_append_comma, hafter, Option.elim_some]

/-! ### A comma after the last argument -/

theorem keyTokens_append {key : List Lexeme} (h : key ≠ []) (rest : List Lexeme) :
    keyTokens (key ++ rest) = keyTokens key ++ rest := by
  obtain ⟨first, key, rfl⟩ := List.exists_cons_of_ne_nil h
  rw [keyTokens.eq_def, keyTokens.eq_def (first :: key)]
  split <;> simp_all

theorem keyName?_of_keyTokens {args rest : List Lexeme} {first second : Lexeme}
    (h : keyTokens args = first :: second :: rest) :
    keyName? args = if second = .punct "," ∨ second = .punct "." then first.ident? else none := by
  unfold keyName?
  rw [h]
  split <;> cases first <;> simp_all [Lexeme.ident?]

theorem keyName?_flag (key : List Lexeme) (flag : Lexeme) (rest : List Lexeme) :
    keyName? (key ++ .punct "," :: flag :: rest) = keyName? (key ++ [.punct ",", flag]) := by
  rcases key with _ | ⟨first, key⟩
  · rfl
  · have htokens := fun rest =>
      keyTokens_append (List.cons_ne_nil first key) (.punct "," :: flag :: rest)
    rcases hkey : keyTokens (first :: key) with _ | ⟨name, _ | ⟨next, others⟩⟩
    all_goals
      rw [hkey] at htokens
      rw [keyName?_of_keyTokens (htokens rest), keyName?_of_keyTokens (htokens [])]

/-- **A comma after the last argument** hides the flag, and nothing else. -/
theorem constructed_trailing (isWritable : Bool) (key : List Lexeme) (flag : Lexeme) :
    constructed isWritable (key ++ [.punct ",", flag, .punct ","]) =
      { constructed isWritable (key ++ [.punct ",", flag]) with isSigner := false } := by
  have hname := keyName?_flag key flag [.punct ","]
  have hlast : (key ++ [.punct ",", flag, .punct ","]).getLast? = some (.punct ",") := by simp
  have hsigner := isSigner_constructed hlast isWritable
  exact congrArg₂ (fun name isSigner => (⟨name, isWritable, isSigner⟩ : AccountRole)) hname hsigner

end AccountRole

/-- **A comma after the last argument.** In any place of any stream, a constructor call has a role
that is writable and signs as the call says. With a comma after the last argument the role is the
same except that it never signs, and the other roles do not change. So the comma makes no difference
exactly if the account does not sign. -/
theorem trailing_comma_hides_signer (call : AccountCall) (before after : Option (List TokenTree)) :
    let plain := AccountRole.placed before after (call.tokens false)
    let trailed := AccountRole.placed before after (call.tokens true)
    (∃ role : AccountRole, role.isWritable = call.isWritable ∧ role.isSigner = call.isSigner ∧
      AccountRole.ofStream plain =
        before.elim [] AccountRole.ofStream ++ role :: after.elim [] AccountRole.ofStream ∧
      AccountRole.ofStream trailed =
        before.elim [] AccountRole.ofStream ++
          { role with isSigner := false } :: after.elim [] AccountRole.ofStream) ∧
      (AccountRole.ofStream trailed = AccountRole.ofStream plain ↔ call.isSigner = false) := by
  intro plain trailed
  have hplaced := fun trailing => AccountRole.ofStream_placed (call.comma_notMem_tokens trailing)
    ⟨_, List.mem_cons_self, .ident "AccountMeta"⟩ before after
  have hplain := hplaced false
  have htrailed := hplaced true
  set role := AccountRole.ofSegment (call.tokens false) with hrole
  have hsigner : role.isSigner = call.isSigner := by
    rw [hrole, AccountRole.ofSegment, call.ofTokens_plain]
  have hhidden : AccountRole.ofSegment (call.tokens true) = { role with isSigner := false } := by
    rw [hrole, AccountRole.ofSegment, AccountRole.ofSegment, call.ofTokens_tokens,
      call.ofTokens_tokens, call.ofStream_arguments, call.ofStream_arguments]
    exact AccountRole.constructed_trailing call.isWritable _ call.flagToken
  rw [hhidden] at htrailed
  refine ⟨⟨role, ?_, hsigner, hplain, htrailed⟩, ?_⟩
  · rw [hrole, AccountRole.ofSegment, call.ofTokens_plain]
  · rw [htrailed, hplain, List.append_cancel_left_eq, List.cons.injEq, ← hsigner]
    obtain ⟨name, isWritable, isSigner⟩ := role
    simp [eq_comm]

/-- The account that pays, with a comma after the last argument. -/
def payerCall : AccountCall :=
  { isWritable := true
    key := [.ident "payer"]
    isSigner := true
    joint := false
    delimiter := "Parenthesis"
    literalFlag := false }

theorem trailing_comma_changes_payer :
    AccountRole.ofStream (payerCall.tokens true) ≠ AccountRole.ofStream (payerCall.tokens false) ∧
      AccountRole.ofStream (payerCall.tokens false) = [⟨some "payer", true, true⟩] ∧
      AccountRole.ofStream (payerCall.tokens true) = [⟨some "payer", true, false⟩] := by
  decide

end AbiRecovery
