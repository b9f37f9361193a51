import AbiRecovery.Proofs.Abi.Merge
import Mathlib.Data.List.Sort

/-!
# Order, repetition and grouping of merges

An instruction list is determined by its opcodes in order (`codes`) and by the records of each
opcode (`eq_of_codes_eq`). The records after a merge are known; the opcodes are those that were
stored, in their order, as long as no new opcode comes in (`codes_foldl_addInstruction`), and they
ascend as soon as one does (`ascending_foldl_addInstruction`). So two lists of incoming records that
bring in the same opcodes and do the same to the records of each give the same merged list
(`foldl_addInstruction_congr`).

Three laws follow. The merged opcodes increase strictly exactly if the stored ones do, or if they
are distinct and a new one comes in. A second merge of the same document changes nothing
(`merge_merge_self`). And merges can be grouped in any way as long as the document in the middle
does not repeat an opcode, as none that is built up from nothing does (`Built.ordered`).
-/

namespace AbiRecovery.Document

/-! ### Opcodes and records -/

theorem count_codes (code : UInt64) (instructions : List Instruction) :
    (codes instructions).count code = (recordsOf code instructions).length := by
  induction instructions with
  | nil => rfl
  | cons record rest ih =>
    rw [codes, List.map_cons, List.count_cons, recordsOf_cons]
    split_ifs with hc hd hd <;> simp_all [codes]

theorem eq_of_codes_eq {first second : List Instruction} (hcodes : codes first = codes second)
    (hrecords : ∀ code, recordsOf code first = recordsOf code second) : first = second := by
  induction first generalizing second with
  | nil => exact (List.map_eq_nil_iff.mp hcodes.symm).symm
  | cons record rest ih =>
    obtain ⟨other, others, rfl, hcode, hrest⟩ := List.map_eq_cons_iff.mp hcodes.symm
    have hhead := hrecords record.code
    rw [recordsOf_cons, if_pos rfl, recordsOf_cons, if_pos hcode, List.cons.injEq] at hhead
    obtain ⟨rfl, -⟩ := hhead
    rw [ih hrest.symm fun code => ?_]
    have htail := hrecords code
    rw [recordsOf_cons, recordsOf_cons] at htail
    split_ifs at htail
    · exact (List.cons.inj htail).2
    · exact htail

theorem codes_eq_of_ascending {first second : List Instruction} (hfirst : Ascending first)
    (hsecond : Ascending second) (hrecords : ∀ code, recordsOf code first = recordsOf code second) :
    codes first = codes second := by
  have hperm : (codes first).Perm (codes second) := by
    rw [List.perm_iff_count]
    intro code
    rw [count_codes, count_codes, hrecords]
  exact hperm.eq_of_pairwise (fun _ _ _ _ => UInt64.le_antisymm) hfirst hsecond

/-! ### Incoming records -/

theorem codes_addInstruction {instructions : List Instruction} {incoming : Instruction}
    (h : incoming.code ∈ codes instructions) :
    codes (addInstruction instructions incoming) = codes instructions := by
  rw [addInstruction, if_pos (any_code_iff.mpr h)]
  exact codes_replaceFirst incoming instructions

theorem mem_codes_addInstruction {code : UInt64} {instructions : List Instruction}
    {incoming : Instruction} :
    code ∈ codes (addInstruction instructions incoming) ↔
      code ∈ codes instructions ∨ code = incoming.code := by
  by_cases h : incoming.code ∈ codes instructions
  · rw [codes_addInstruction h]
    constructor
    · exact Or.inl
    · rintro (hcode | rfl)
      · exact hcode
      · exact h
  · rw [addInstruction, if_neg fun hany => h (any_code_iff.mp hany),
      (perm_codes_sortByCode _).mem_iff]
    simp [codes]

theorem ascending_addInstruction {instructions : List Instruction} {incoming : Instruction}
    (h : Ascending instructions ∨ incoming.code ∉ codes instructions) :
    Ascending (addInstruction instructions incoming) := by
  by_cases hmem : incoming.code ∈ codes instructions
  · have hsorted := h.resolve_right (not_not_intro hmem)
    rw [Ascending, codes_addInstruction hmem]
    exact hsorted
  · rw [addInstruction, if_neg fun hany => hmem (any_code_iff.mp hany)]
    exact ascending_sortByCode _

theorem codes_foldl_addInstruction {records instructions : List Instruction}
    (h : ∀ code ∈ codes records, code ∈ codes instructions) :
    codes (records.foldl addInstruction instructions) = codes instructions := by
  induction records generalizing instructions with
  | nil => rfl
  | cons record records ih =>
    have hhead : codes (addInstruction instructions record) = codes instructions :=
      codes_addInstruction (h record.code (by simp [codes]))
    rw [List.foldl_cons, ih, hhead]
    intro code hcode
    rw [hhead]
    exact h code (List.mem_cons_of_mem _ hcode)

theorem mem_codes_foldl_addInstruction {code : UInt64} {records instructions : List Instruction} :
    code ∈ codes (records.foldl addInstruction instructions) ↔
      code ∈ codes instructions ∨ code ∈ codes records := by
  induction records generalizing instructions with
  | nil => simp [codes]
  | cons record records ih =>
    rw [List.foldl_cons, ih, mem_codes_addInstruction, codes, codes, codes, List.map_cons,
      List.mem_cons, or_assoc]

/-- **Many records** have the list sorted as soon as one of them brings in a new opcode. -/
theorem ascending_foldl_addInstruction {records instructions : List Instruction}
    (h : Ascending instructions ∨ ∃ code ∈ codes records, code ∉ codes instructions) :
    Ascending (records.foldl addInstruction instructions) := by
  induction records generalizing instructions with
  | nil => exact h.resolve_right (by simp [codes])
  | cons record records ih =>
    rw [List.foldl_cons]
    refine ih ?_
    by_cases hmem : record.code ∈ codes instructions
    · rw [Ascending, codes_addInstruction hmem]
      refine h.imp_right ?_
      rintro ⟨code, hcode, hnew⟩
      rcases List.mem_cons.mp hcode with rfl | hcode
      · exact absurd hmem hnew
      · exact ⟨code, hcode, hnew⟩
    · exact Or.inl (ascending_addInstruction (Or.inr hmem))

/-- **The merged list is determined** by the incoming opcodes and by what the incoming records do to
the records of each opcode. -/
theorem foldl_addInstruction_congr {first second stored : List Instruction}
    (hcodes : ∀ code, code ∈ codes first ↔ code ∈ codes second)
    (hrecords : ∀ code, (recordsOf code first).foldl supersedeFirst (recordsOf code stored) =
      (recordsOf code second).foldl supersedeFirst (recordsOf code stored)) :
    first.foldl addInstruction stored = second.foldl addInstruction stored := by
  have hsame : ∀ code, recordsOf code (first.foldl addInstruction stored) =
      recordsOf code (second.foldl addInstruction stored) := by
    intro code
    rw [recordsOf_foldl_addInstruction, recordsOf_foldl_addInstruction, hrecords]
  refine eq_of_codes_eq ?_ hsame
  -- without a new opcode both keep the stored order, with one both are sorted
  by_cases hknown : ∀ code ∈ codes first, code ∈ codes stored
  · rw [codes_foldl_addInstruction hknown, codes_foldl_addInstruction]
    intro code hcode
    exact hknown code ((hcodes code).mpr hcode)
  · push Not at hknown
    obtain ⟨code, hcode, hnew⟩ := hknown
    exact codes_eq_of_ascending
      (ascending_foldl_addInstruction (Or.inr ⟨code, hcode, hnew⟩))
      (ascending_foldl_addInstruction (Or.inr ⟨code, (hcodes code).mp hcode, hnew⟩)) hsame

theorem foldl_supersedeFirst_twice (stored records : List Instruction) :
    (records ++ records).foldl supersedeFirst stored = records.foldl supersedeFirst stored := by
  rcases records.eq_nil_or_concat' with rfl | ⟨before, last, hrecords⟩
  · rfl
  · have htwice : records ++ records = (records ++ before) ++ [last] := by
      rw [List.append_assoc, ← hrecords]
    have haccounts : lastAccounts (stored.head?.toList ++ (records ++ records)) =
        lastAccounts (stored.head?.toList ++ records) := by
      rw [lastAccounts_append, lastAccounts_append, lastAccounts_append, Option.or_self]
    rw [htwice, foldl_supersedeFirst, ← htwice, haccounts]
    nth_rewrite 2 [hrecords]
    rw [foldl_supersedeFirst, ← hrecords]

theorem foldl_supersedeFirst_grouped {middle : List Instruction} (h : middle.length ≤ 1)
    (stored records : List Instruction) :
    (records.foldl supersedeFirst middle).foldl supersedeFirst stored =
      (middle ++ records).foldl supersedeFirst stored := by
  rcases records.eq_nil_or_concat' with rfl | ⟨before, last, rfl⟩
  · rw [List.append_nil, List.foldl_nil]
  · have htail : middle.tail = [] := by
      rw [← List.length_eq_zero_iff, List.length_tail]
      omega
    have hhead : middle.head?.toList = middle := by
      rcases middle with _ | ⟨record, rest⟩
      · rfl
      · rw [List.tail_cons] at htail
        rw [htail]
        rfl
    have hgrouped := foldl_supersedeFirst stored []
      { last with accounts := lastAccounts (middle ++ (before ++ [last])) }
    rw [List.nil_append, lastAccounts_concat] at hgrouped
    rw [foldl_supersedeFirst, htail, hhead, hgrouped, ← List.append_assoc, foldl_supersedeFirst,
      lastAccounts_append stored.head?.toList, List.append_assoc]

theorem length_foldl_supersedeFirst_le_one_iff (stored records : List Instruction) :
    (records.foldl supersedeFirst stored).length ≤ 1 ↔ stored.length ≤ 1 := by
  have hstep : ∀ (stored : List Instruction) (record : Instruction),
      (supersedeFirst stored record).length ≤ 1 ↔ stored.length ≤ 1 := by
    intro stored record
    rcases stored with _ | ⟨first, rest⟩ <;> simp [supersedeFirst]
  induction records generalizing stored with
  | nil => rfl
  | cons record records ih => exact (ih _).trans (hstep stored record)

theorem nodup_codes_foldl_addInstruction (records instructions : List Instruction) :
    (codes (records.foldl addInstruction instructions)).Nodup ↔ (codes instructions).Nodup := by
  simp only [List.nodup_iff_count_le_one, count_codes, recordsOf_foldl_addInstruction,
    length_foldl_supersedeFirst_le_one_iff]

/-! ### Documents -/

theorem merge_eq (stored incoming : Document) :
    stored.merge incoming =
      { name := stored.name
        version := stored.version
        instructions := incoming.instructions.foldl addInstruction stored.instructions
        metadata :=
          { origin :=
              if incoming.metadata.origin = unknownOrigin then stored.metadata.origin
              else incoming.metadata.origin
            instructionEnum := incoming.metadata.instructionEnum.or stored.metadata.instructionEnum
            fingerprint :=
              fingerprintOf (incoming.instructions.foldl addInstruction stored.instructions)
            imports := incoming.metadata.imports } } := by
  simp only [merge, refresh, foldl_add]

/-- **When a merged list is in order.** The opcodes after a merge increase strictly exactly if the
stored opcodes are distinct, and are in order already or are put in order because a new opcode comes
in. A merge that brings in no new opcode leaves a stored list in whatever order it has. -/
theorem ordered_merge_iff (stored incoming : Document) :
    Ordered (stored.merge incoming).instructions ↔
      (codes stored.instructions).Nodup ∧
        (Ordered stored.instructions ∨
          ∃ code ∈ codes incoming.instructions, code ∉ codes stored.instructions) := by
  have hnodup := nodup_codes_foldl_addInstruction incoming.instructions stored.instructions
  rw [instructions_merge]
  constructor
  · intro hordered
    refine ⟨hnodup.mp (ordered_iff.mp hordered).2, or_iff_not_imp_right.mpr fun hknown => ?_⟩
    push Not at hknown
    rw [ordered_iff_codes, codes_foldl_addInstruction hknown] at hordered
    exact ordered_iff_codes.mpr hordered
  · rintro ⟨hdistinct, hordered⟩
    have hascending := hordered.imp_left fun h => (ordered_iff.mp h).1
    exact ordered_iff.mpr ⟨ascending_foldl_addInstruction hascending, hnodup.mpr hdistinct⟩

/-- A document with two opcodes, the higher one first. -/
def swappedDocument : Document :=
  { name := "shop"
    version := "0.1.0"
    instructions := [⟨1, "Close", [], none⟩, ⟨0, "Open", [], none⟩]
    metadata := { origin := "enum", instructionEnum := none, fingerprint := "", imports := { } } }

/-- A text from which it is read. -/
def swappedText : String :=
  "\x7b\"name\":\"shop\",\"version\":\"0.1.0\",\"instructions\":[" ++
    "\x7b\"code\":1,\"name\":\"Close\",\"inputs\":[]\x7d," ++
    "\x7b\"code\":0,\"name\":\"Open\",\"inputs\":[]\x7d]," ++
    "\"metadata\":\x7b\"origin\":\"enum\",\"fingerprint\":\"\"\x7d\x7d"

/-- A file with an enum of the same two opcodes. -/
def shopFile : Tree.File :=
  ⟨[.enum ⟨.everywhere, ⟨"Op"⟩, [.variant ⟨"Open"⟩ .unit, .variant ⟨"Close"⟩ .unit]⟩]⟩

theorem ofText_swappedText : (ofText swappedText).toOption = some swappedDocument := by
  decide +kernel

/-- A document that was stored out of order stays so, although both of its opcodes are merged
anew. -/
theorem merge_swapped_not_ordered :
    (ofText swappedText).toOption = some swappedDocument ∧
      ¬ Ordered
        (swappedDocument.merge (ofAnalysis "shop" (Analysis.ofFile shopFile))).instructions := by
  refine ⟨ofText_swappedText, fun hordered => ?_⟩
  have hcodes : codes (Analysis.ofFile shopFile).instructions = [0, 1] := by decide +kernel
  have hknown : ∀ code ∈ codes (ofAnalysis "shop" (Analysis.ofFile shopFile)).instructions,
      code ∈ codes swappedDocument.instructions := by
    intro code hcode
    rw [instructions_ofAnalysis, mem_codes_foldl_addInstruction, hcodes] at hcode
    simp only [codes, List.map_nil, List.not_mem_nil, false_or, List.mem_cons, or_false] at hcode
    rcases hcode with rfl | rfl <;> decide
  rw [instructions_merge, ordered_iff_codes, codes_foldl_addInstruction hknown] at hordered
  revert hordered
  decide

/-- **A second merge** of the same document changes nothing. -/
theorem merge_merge_self (stored incoming : Document) :
    (stored.merge incoming).merge incoming = stored.merge incoming := by
  have hlist : incoming.instructions.foldl addInstruction
      (incoming.instructions.foldl addInstruction stored.instructions) =
        incoming.instructions.foldl addInstruction stored.instructions := by
    rw [← List.foldl_append]
    refine foldl_addInstruction_congr (fun code => ?_) fun code => ?_
    · simp [codes]
    · rw [recordsOf_append, foldl_supersedeFirst_twice]
  rw [merge_eq, merge_eq]
  simp only [hlist, Document.mk.injEq, Metadata.mk.injEq, true_and, and_true]
  refine ⟨?_, ?_⟩
  · split_ifs <;> rfl
  · rw [← Option.or_assoc, Option.or_self]

/-! ### Documents that are built up from nothing -/

/-- A document that is **built** from an empty one by adding instructions, merging any documents and
refreshing the fingerprint. -/
inductive Built : Document → Prop
  | empty (name : String) : Built (empty name)
  | add {document : Document} (incoming : Instruction) :
    Built document → Built (document.add incoming)
  | merge {document : Document} (incoming : Document) :
    Built document → Built (document.merge incoming)
  | refresh {document : Document} : Built document → Built document.refresh

theorem Built.ordered {document : Document} (h : Built document) :
    Ordered document.instructions := by
  induction h with
  | empty name => exact List.Pairwise.nil
  | add incoming _ ih => exact ordered_addInstruction ih incoming
  | merge incoming _ ih => exact ordered_merge ih incoming
  | refresh _ ih => exact ih

/-- **Merges can be grouped in any way**: a document that is merged into one that was built, and
then with it into a third, gives what the two give when they are merged one after the other. Only
the document in the middle has to be built; the others are any documents. -/
theorem merge_assoc_of_built {middle : Document} (h : Built middle) (stored newest : Document) :
    (stored.merge middle).merge newest = stored.merge (middle.merge newest) := by
  have hsingle : ∀ code, (recordsOf code middle.instructions).length ≤ 1 := by
    intro code
    rw [← count_codes]
    exact List.nodup_iff_count_le_one.mp (ordered_iff.mp h.ordered).2 code
  have hlist : newest.instructions.foldl addInstruction
      (middle.instructions.foldl addInstruction stored.instructions) =
        (newest.instructions.foldl addInstruction middle.instructions).foldl addInstruction
          stored.instructions := by
    rw [← List.foldl_append]
    refine foldl_addInstruction_congr (fun code => ?_) fun code => ?_
    · rw [mem_codes_foldl_addInstruction, codes, List.map_append, List.mem_append]
      rfl
    · rw [recordsOf_append, recordsOf_foldl_addInstruction,
        foldl_supersedeFirst_grouped (hsingle code)]
  rw [merge_eq, merge_eq, merge_eq, merge_eq]
  simp only [hlist, Document.mk.injEq, Metadata.mk.injEq, true_and, and_true]
  refine ⟨?_, ?_⟩
  · split_ifs <;> simp_all
  · rw [Option.or_assoc]

/-- A document with one instruction that has no accounts. -/
def openDocument : Document :=
  (empty "shop").add ⟨0, "Open", [], none⟩

/-- A stored document with accounts for the same instruction. -/
def paidDocument : Document :=
  { swappedDocument with
    instructions :=
      [⟨1, "Close", [], none⟩, ⟨0, "Open", [], some [⟨some "payer", true, true⟩]⟩] }

/-- The stored accounts get past the document in the middle, and past the newest one. -/
theorem merge_assoc_of_openDocument :
    Built openDocument ∧
      (paidDocument.merge openDocument).merge (ofAnalysis "shop" (Analysis.ofFile shopFile)) =
        paidDocument.merge
          (openDocument.merge (ofAnalysis "shop" (Analysis.ofFile shopFile))) ∧
      (recordsOf 0 ((paidDocument.merge openDocument).merge
        (ofAnalysis "shop" (Analysis.ofFile shopFile))).instructions).map Instruction.accounts =
          [some [⟨some "payer", true, true⟩]] := by
  have hbuilt : Built openDocument := .add _ (.empty "shop")
  refine ⟨hbuilt, merge_assoc_of_built hbuilt _ _, ?_⟩
  have hopen : recordsOf 0 openDocument.instructions = [⟨0, "Open", [], none⟩] :=
    recordsOf_foldl_addInstruction 0 [⟨0, "Open", [], none⟩] []
  rw [instructions_merge, recordsOf_foldl_addInstruction, instructions_merge,
    recordsOf_foldl_addInstruction, instructions_ofAnalysis, recordsOf_foldl_addInstruction, hopen]
  decide +kernel

end AbiRecovery.Document
