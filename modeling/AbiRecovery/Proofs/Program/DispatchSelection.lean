import AbiRecovery.Proofs.Program.DispatchRecovery
import AbiRecovery.Proofs.Program.ItemOrder

/-!
# Which block of methods decides

A file may have many blocks of methods, and the opcodes of its dispatch are those of the first block
that has any (`FirstEntries`). A block can fail to have opcodes in three ways: it has no method
`unpack`, or this method has no `Ok(match ..)`, or no arm of the match has a literal
(`DispatchForm`, `ofImpl?_eq_iff`).

In a single walk over the items the dispatch is kept as soon as it has entries. Until then the last
block that was looked at decides what is kept (`Dispatch.keep`): nothing after a block without a
dispatch, and an empty list after one without literals. The invariant does not tell these two apart:
what is kept counts as long as it has entries, and else what comes later does (`getD_foldl_keep`).
-/

namespace AbiRecovery

open AbiRecovery.Tree

/-! ### Forms of a block -/

/-- What a block of methods has to say about the opcodes, by its **form**. -/
inductive DispatchForm (item : ImplItem) : Option (List DispatchEntry) → Prop
  /-- There is no method `unpack`. -/
  | noMethod :
    (∀ signature block, .method signature block ∈ item.entries →
      signature.ident.text ≠ "unpack") → DispatchForm item none
  /-- The first method `unpack` has no statement `Ok(match ..)`. -/
  | noMatch {methods others : List ImplEntry} {signature : Signature} {block : Block} :
    item.entries = methods ++ .method signature block :: others →
      signature.ident.text = "unpack" →
      (∀ earlier other, .method earlier other ∈ methods → earlier.ident.text ≠ "unpack") →
      (∀ stmt ∈ block.stmts, ∀ arms, ¬ OkMatch arms stmt) → DispatchForm item none
  /-- No arm of the match has a literal. -/
  | noLiteral {arms : List Arm} : Dispatches item arms →
    (∀ arm ∈ arms, ∀ text, ¬ LiteralPat text arm.pat) → DispatchForm item (some [])
  /-- There are arms with a literal. -/
  | literals {arms : List Arm} {arm : Arm} {text : String} : Dispatches item arms → arm ∈ arms →
    LiteralPat text arm.pat → DispatchForm item (some (arms.filterMap DispatchEntry.ofArm?))

theorem filterMap_ofArm?_eq_nil {arms : List Arm}
    (h : ∀ arm ∈ arms, ∀ text, ¬ LiteralPat text arm.pat) :
    arms.filterMap DispatchEntry.ofArm? = [] := by
  rw [List.filterMap_eq_nil_iff]
  intro arm harm
  rw [DispatchEntry.ofArm?, literal?_eq_none_iff.mpr (h arm harm), Option.map_none]

theorem DispatchForm.ofImpl?_eq {item : ImplItem} {found : Option (List DispatchEntry)}
    (h : DispatchForm item found) : Dispatch.ofImpl? item = found := by
  cases h with
  | noMethod hmethods =>
    have hbody : item.entries.findSome? Dispatch.body? = none :=
      List.findSome?_eq_none_iff.mpr (forall_body?_eq_none_iff.mpr hmethods)
    rw [Dispatch.ofImpl?, hbody, Option.bind_none]
  | noMatch hentries hname hmethods hstmts =>
    have hbody := findSome?_body?_eq_some_iff.mpr ⟨_, _, _, hentries, hname, hmethods⟩
    have harms := List.findSome?_eq_none_iff.mpr fun stmt hstmt =>
      arms?_eq_none_iff.mpr (hstmts stmt hstmt)
    rw [Dispatch.ofImpl?, hbody, Option.bind_some, harms, Option.map_none]
  | noLiteral hdispatch hliterals =>
    rw [hdispatch.ofImpl?_eq, filterMap_ofArm?_eq_nil hliterals]
  | literals hdispatch _ _ => exact hdispatch.ofImpl?_eq

theorem dispatchForm_ofImpl? (item : ImplItem) : DispatchForm item (Dispatch.ofImpl? item) := by
  cases hbody : item.entries.findSome? Dispatch.body? with
  | none =>
    have hform := DispatchForm.noMethod
      (forall_body?_eq_none_iff.mp (List.findSome?_eq_none_iff.mp hbody))
    rwa [hform.ofImpl?_eq]
  | some block =>
    cases harms : block.stmts.findSome? Dispatch.arms? with
    | none =>
      obtain ⟨methods, signature, others, hentries, hname, hmethods⟩ :=
        findSome?_body?_eq_some_iff.mp hbody
      have hform := DispatchForm.noMatch hentries hname hmethods
        fun stmt hstmt => arms?_eq_none_iff.mp (List.findSome?_eq_none_iff.mp harms stmt hstmt)
      rwa [hform.ofImpl?_eq]
    | some arms =>
      have hdispatch : Dispatches item arms := dispatches_iff.mpr (by rw [hbody]; exact harms)
      by_cases hliterals : ∀ arm ∈ arms, ∀ text, ¬ LiteralPat text arm.pat
      · have hform := DispatchForm.noLiteral hdispatch hliterals
        rwa [hform.ofImpl?_eq]
      · push Not at hliterals
        obtain ⟨arm, harm, text, htext⟩ := hliterals
        have hform := DispatchForm.literals hdispatch harm htext
        rwa [hform.ofImpl?_eq]

theorem ofImpl?_eq_iff {item : ImplItem} {found : Option (List DispatchEntry)} :
    Dispatch.ofImpl? item = found ↔ DispatchForm item found :=
  ⟨fun h => h ▸ dispatchForm_ofImpl? item, DispatchForm.ofImpl?_eq⟩

/-! ### The first block with opcodes -/

/-- The **entries of the first block** of methods that has any, and none if no block has. -/
inductive FirstEntries (items : List ImplItem) : List DispatchEntry → Prop
  | first {before after : List ImplItem} {block : ImplItem} {entries : List DispatchEntry} :
    items = before ++ block :: after → Dispatch.ofImpl? block = some entries → entries ≠ [] →
      (∀ earlier ∈ before, ∀ found, Dispatch.ofImpl? earlier = some found → found = []) →
        FirstEntries items entries
  | absent : (∀ block ∈ items, ∀ found, Dispatch.ofImpl? block = some found → found = []) →
    FirstEntries items []

theorem FirstEntries.cons {item : ImplItem} {items : List ImplItem} {entries : List DispatchEntry}
    (h : FirstEntries items entries)
    (hitem : ∀ found, Dispatch.ofImpl? item = some found → found = []) :
    FirstEntries (item :: items) entries := by
  cases h with
  | first hitems hblock hentries hbefore =>
    rw [hitems, ← List.cons_append]
    exact .first rfl hblock hentries (List.forall_mem_cons.mpr ⟨hitem, hbefore⟩)
  | absent hblocks => exact .absent (List.forall_mem_cons.mpr ⟨hitem, hblocks⟩)

namespace Dispatch

theorem getD_ofImpl?_eq_nil_iff {item : ImplItem} :
    (ofImpl? item).getD [] = [] ↔ ∀ found, ofImpl? item = some found → found = [] := by
  cases ofImpl? item <;> simp

theorem ofImpls_append (first second : List ImplItem) :
    ofImpls (first ++ second) = if ofImpls first = [] then ofImpls second else ofImpls first := by
  induction first with
  | nil => rfl
  | cons item first ih =>
    rw [List.cons_append, Pass.ofImpls_cons, Pass.ofImpls_cons, ih]
    split_ifs <;> rfl

theorem ofImpls_eq_nil {items : List ImplItem}
    (h : ∀ block ∈ items, ∀ found, ofImpl? block = some found → found = []) :
    ofImpls items = [] := by
  induction items with
  | nil => rfl
  | cons item items ih =>
    rw [List.forall_mem_cons] at h
    rw [Pass.ofImpls_cons, if_pos (getD_ofImpl?_eq_nil_iff.mpr h.1), ih h.2]

theorem firstEntries_ofImpls (items : List ImplItem) : FirstEntries items (ofImpls items) := by
  induction items with
  | nil => exact .absent fun block hblock => absurd hblock List.not_mem_nil
  | cons item items ih =>
    rw [Pass.ofImpls_cons]
    split_ifs with hitem
    · exact ih.cons (getD_ofImpl?_eq_nil_iff.mp hitem)
    · cases hfound : ofImpl? item with
      | none => exact absurd (by rw [hfound]; rfl) hitem
      | some entries =>
        rw [hfound] at hitem
        exact .first (List.nil_append _).symm hfound hitem
          fun earlier hearlier => absurd hearlier List.not_mem_nil

/-- **The opcodes of a program** are those of the first block that has any, and no others. -/
theorem ofImpls_eq_iff {items : List ImplItem} {entries : List DispatchEntry} :
    ofImpls items = entries ↔ FirstEntries items entries := by
  refine ⟨fun h => h ▸ firstEntries_ofImpls items, fun h => ?_⟩
  cases h with
  | first hitems hblock hentries hbefore =>
    rw [hitems, ofImpls_append, if_pos (ofImpls_eq_nil hbefore), Pass.ofImpls_cons, hblock]
    exact if_neg hentries
  | absent hblocks => exact ofImpls_eq_nil hblocks

/-! ### Walking over the items -/

/-- Takes one more item. A block of methods is looked at as long as no entries were found, and then
what it has to say takes the place of what is kept, even if that is less. -/
def keep (found : Option (List DispatchEntry)) : Item → Option (List DispatchEntry)
  | .impl block => if found.getD [] = [] then ofImpl? block else found
  | _ => found

/-- **What a walk keeps**: the entries that were found before it, and if there are none, those of the
first block that it comes to. -/
theorem getD_foldl_keep (items : List Item) (found : Option (List DispatchEntry)) :
    (items.foldl keep found).getD [] =
      if found.getD [] = [] then ofImpls (File.mk items).impls else found.getD [] := by
  induction items generalizing found with
  | nil =>
    by_cases hfound : found.getD [] = []
    · rw [if_pos hfound]
      exact hfound
    · rw [if_neg hfound]
      rfl
  | cons item items ih =>
    rw [List.foldl_cons, ih]
    cases item with
    | impl block =>
      have himpls : (File.mk (.impl block :: items)).impls = block :: (File.mk items).impls := rfl
      rw [himpls, Pass.ofImpls_cons, keep]
      by_cases hfound : found.getD [] = []
      · rw [if_pos hfound, if_pos hfound]
      · rw [if_neg hfound, if_neg hfound, if_neg hfound]
    | use | struct | enum | function | other => rfl

end Dispatch

/-- **The first block with opcodes decides.** The opcodes of a file's dispatch are what a walk over
its items keeps. They are those of the first block of methods that has any, and there are none if no
block has. What a block has to say is told by its form: whether it has a method `unpack`, whether
this has an `Ok(match ..)`, and whether an arm of it has a literal. If items are put after those of
the file, then their blocks count exactly if the file had no opcodes before. So blocks after the
first one with opcodes never change the dispatch, and blocks without opcodes never stand in the way
of those after them. -/
theorem dispatch_of_first_block (file : File) :
    (Analysis.ofFile file).dispatch = (file.items.foldl Dispatch.keep none).getD [] ∧
      (∀ entries, (Analysis.ofFile file).dispatch = entries ↔ FirstEntries file.impls entries) ∧
      (∀ block found, Dispatch.ofImpl? block = found ↔ DispatchForm block found) ∧
      ∀ later : File,
        (Analysis.ofFile ⟨file.items ++ later.items⟩).dispatch =
          if (Analysis.ofFile file).dispatch = [] then (Analysis.ofFile later).dispatch
          else (Analysis.ofFile file).dispatch := by
  refine ⟨(Dispatch.getD_foldl_keep file.items none).symm, fun entries => Dispatch.ofImpls_eq_iff,
    fun block found => ofImpl?_eq_iff, fun later => ?_⟩
  have himpls : (File.mk (file.items ++ later.items)).impls = file.impls ++ later.impls :=
    List.filterMap_append
  change Dispatch.ofImpls (File.mk (file.items ++ later.items)).impls = _
  rw [himpls, Dispatch.ofImpls_append]
  rfl

/-- A match without literals, and then a block without a dispatch, do not hide the block that has an
opcode; the block after that one has another opcode, which does not count. -/
example :
    let unpack (pat : Pat) : Item := .impl ⟨.other, [.method ⟨⟨"unpack"⟩, []⟩
      ⟨[.expr (.call (.path ⟨[⟨⟨"Ok"⟩, .none⟩]⟩) [.matchOn .other [⟨pat, .other⟩]])]⟩]⟩
    (Analysis.ofFile ⟨[unpack .wild, .impl ⟨.other, []⟩, unpack (.lit (.lit (.int "3"))), .other,
      unpack (.lit (.lit (.int "7")))]⟩).dispatch = [⟨"3", none⟩] := by
  decide +kernel

end AbiRecovery
