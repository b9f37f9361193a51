import AbiRecovery.Abi.Document
import Mathlib.Data.List.Basic
import Mathlib.Data.List.Induction

/-!
# Merging, opcode by opcode

The records of one opcode in an instruction list, in order (`recordsOf`), are all that a merge looks
at when it takes over a record of that opcode (`recordsOf_addInstruction`): the first one is
superseded, the others stay, and if there is none the new record is the only one. In particular
sorting the list when a new opcode comes in does not disturb them (`recordsOf_sortByCode`).

So the records of an opcode after a merge are a fold over the incoming records of that opcode
(`recordsOf_merge`), whose outcome is the last incoming record with the last account list that is
known (`foldl_supersedeFirst`).
-/

namespace AbiRecovery.Document

/-- The records of an opcode, in order. -/
def recordsOf (code : UInt64) (instructions : List Instruction) : List Instruction :=
  instructions.filter fun instruction => instruction.code = code

/-- The first record of an opcode. -/
def firstOf (code : UInt64) (instructions : List Instruction) : Option Instruction :=
  instructions.find? fun instruction => instruction.code = code

/-- What a record does to the records of its opcode. -/
def supersedeFirst (records : List Instruction) (incoming : Instruction) : List Instruction :=
  match records with
  | [] => [incoming]
  | stored :: rest => supersede stored incoming :: rest

/-- The last account list that is known. -/
def lastAccounts (records : List Instruction) : Option (List AccountRole) :=
  (records.filterMap Instruction.accounts).getLast?

theorem head?_recordsOf (code : UInt64) (instructions : List Instruction) :
    (recordsOf code instructions).head? = firstOf code instructions :=
  List.head?_filter

theorem code_of_mem_recordsOf {code : UInt64} {instructions : List Instruction}
    {record : Instruction} (h : record ∈ recordsOf code instructions) : record.code = code := by
  simpa using (List.mem_filter.mp h).2

theorem recordsOf_cons (code : UInt64) (record : Instruction) (rest : List Instruction) :
    recordsOf code (record :: rest) =
      if record.code = code then record :: recordsOf code rest else recordsOf code rest := by
  simp only [recordsOf, List.filter_cons, decide_eq_true_eq]

theorem recordsOf_append (code : UInt64) (first second : List Instruction) :
    recordsOf code (first ++ second) = recordsOf code first ++ recordsOf code second :=
  List.filter_append ..

theorem code_supersede (stored incoming : Instruction) :
    (supersede stored incoming).code = incoming.code :=
  rfl

theorem recordsOf_eq_nil_iff {code : UInt64} {instructions : List Instruction} :
    recordsOf code instructions = [] ↔ ∀ record ∈ instructions, record.code ≠ code := by
  simp [recordsOf, List.filter_eq_nil_iff]

/-! ### One record -/

/-- **Sorting is stable**: it leaves the records of an opcode in their order. -/
theorem recordsOf_sortByCode (code : UInt64) (instructions : List Instruction) :
    recordsOf code (sortByCode instructions) = recordsOf code instructions := by
  set le : Instruction → Instruction → Bool := fun first second => first.code ≤ second.code with hle
  have htrans : ∀ a b c : Instruction, le a b → le b c → le a c := by
    intro a b c hab hbc
    simp only [hle, decide_eq_true_eq] at hab hbc ⊢
    exact UInt64.le_trans hab hbc
  have htotal : ∀ a b : Instruction, (le a b || le b a) = true := by
    intro a b
    simpa [hle] using UInt64.le_total a.code b.code
  have hequal : (recordsOf code instructions).Pairwise fun a b => le a b := by
    refine List.pairwise_of_forall_mem_list fun a ha b hb => ?_
    simp [hle, code_of_mem_recordsOf ha, code_of_mem_recordsOf hb]
  have hsub : (recordsOf code instructions).Sublist (sortByCode instructions) :=
    List.sublist_mergeSort htrans htotal hequal List.filter_sublist
  have hlen : (recordsOf code (sortByCode instructions)).length =
      (recordsOf code instructions).length :=
    ((List.mergeSort_perm instructions le).filter _).length_eq
  have hsub' :
      (recordsOf code instructions).Sublist (recordsOf code (sortByCode instructions)) := by
    have h := hsub.filter fun instruction : Instruction => instruction.code = code
    simpa only [recordsOf, List.filter_filter, Bool.and_self] using h
  exact (hsub'.eq_of_length hlen.symm).symm

theorem recordsOf_replaceFirst_self (incoming : Instruction) (instructions : List Instruction)
    (h : recordsOf incoming.code instructions ≠ []) :
    recordsOf incoming.code (replaceFirst incoming instructions) =
      supersedeFirst (recordsOf incoming.code instructions) incoming := by
  induction instructions with
  | nil => exact absurd rfl h
  | cons stored rest ih =>
    by_cases hc : stored.code = incoming.code
    · rw [replaceFirst, if_pos hc, recordsOf_cons, if_pos (code_supersede stored incoming),
        recordsOf_cons, if_pos hc]
      rfl
    · rw [recordsOf_cons, if_neg hc] at h
      rw [replaceFirst, if_neg hc, recordsOf_cons, if_neg hc, recordsOf_cons, if_neg hc, ih h]

theorem recordsOf_replaceFirst_of_ne {code : UInt64} {incoming : Instruction}
    (h : incoming.code ≠ code) (instructions : List Instruction) :
    recordsOf code (replaceFirst incoming instructions) = recordsOf code instructions := by
  induction instructions with
  | nil => rfl
  | cons stored rest ih =>
    by_cases hc : stored.code = incoming.code
    · have hs : ¬ stored.code = code := fun he => h (hc.symm.trans he)
      rw [replaceFirst, if_pos hc, recordsOf_cons, code_supersede, if_neg h, recordsOf_cons,
        if_neg hs]
    · rw [replaceFirst, if_neg hc, recordsOf_cons, recordsOf_cons, ih]

/-- **One record**: it supersedes the first record of its opcode, or is the only one, and it leaves
the records of all other opcodes alone. -/
theorem recordsOf_addInstruction (code : UInt64) (instructions : List Instruction)
    (incoming : Instruction) :
    recordsOf code (addInstruction instructions incoming) =
      if incoming.code = code then supersedeFirst (recordsOf code instructions) incoming
      else recordsOf code instructions := by
  unfold addInstruction
  by_cases hany : (instructions.any fun stored => stored.code = incoming.code) = true
  · rw [if_pos hany]
    split_ifs with hc
    · subst hc
      refine recordsOf_replaceFirst_self incoming instructions fun hnil => ?_
      obtain ⟨stored, hmem, hcode⟩ := List.any_eq_true.mp hany
      exact recordsOf_eq_nil_iff.mp hnil stored hmem (by simpa using hcode)
    · exact recordsOf_replaceFirst_of_ne hc instructions
  · rw [if_neg hany, recordsOf_sortByCode, recordsOf_append, recordsOf_cons]
    split_ifs with hc
    · subst hc
      have hnil : recordsOf incoming.code instructions = [] := by
        rw [recordsOf_eq_nil_iff]
        intro stored hmem hcode
        exact hany (List.any_eq_true.mpr ⟨stored, hmem, by simpa using hcode⟩)
      rw [hnil]
      rfl
    · exact List.append_nil _

/-! ### A whole list of records -/

theorem recordsOf_foldl_addInstruction (code : UInt64) (incoming instructions : List Instruction) :
    recordsOf code (incoming.foldl addInstruction instructions) =
      (recordsOf code incoming).foldl supersedeFirst (recordsOf code instructions) := by
  induction incoming generalizing instructions with
  | nil => rfl
  | cons record incoming ih =>
    rw [List.foldl_cons, ih, recordsOf_addInstruction, recordsOf_cons]
    split_ifs
    · rfl
    · rfl

theorem lastAccounts_append (first second : List Instruction) :
    lastAccounts (first ++ second) = (lastAccounts second).or (lastAccounts first) := by
  unfold lastAccounts
  rw [List.filterMap_append, List.getLast?_append]

theorem lastAccounts_concat (records : List Instruction) (last : Instruction) :
    lastAccounts (records ++ [last]) = last.accounts.or (lastAccounts records) := by
  have hlast : lastAccounts [last] = last.accounts := by
    cases h : last.accounts <;> simp [lastAccounts, h]
  rw [lastAccounts_append, hlast]

/-- **Several records of one opcode** leave the last of them, with the last account list that is
known, in the place of the first stored one. -/
theorem foldl_supersedeFirst (stored records : List Instruction) (last : Instruction) :
    (records ++ [last]).foldl supersedeFirst stored =
      { last with accounts := lastAccounts (stored.head?.toList ++ (records ++ [last])) } ::
        stored.tail := by
  have hlast : ∀ earlier : List Instruction,
      lastAccounts (earlier ++ [last]) = last.accounts.or (lastAccounts earlier) :=
    fun earlier => lastAccounts_concat earlier last
  rw [List.foldl_append, List.foldl_cons, List.foldl_nil, ← List.append_assoc, hlast]
  induction records using List.reverseRecOn generalizing last with
  | nil =>
    rcases stored with _ | ⟨first, rest⟩
    · simp [supersedeFirst, lastAccounts]
    · have hone : lastAccounts [first] = first.accounts := by
        cases h : first.accounts <;> simp [lastAccounts, h]
      simp [supersedeFirst, supersede, hone]
  | append_singleton records record ih =>
    rw [List.foldl_append, List.foldl_cons, List.foldl_nil,
      ih record fun earlier => lastAccounts_concat earlier record, ← List.append_assoc,
      lastAccounts_concat]
    rfl

theorem foldl_add (records : List Instruction) (document : Document) :
    records.foldl add document =
      { document with instructions := records.foldl addInstruction document.instructions } := by
  induction records generalizing document with
  | nil => rfl
  | cons record records ih =>
    rw [List.foldl_cons, ih]
    rfl

theorem instructions_merge (stored incoming : Document) :
    (stored.merge incoming).instructions =
      incoming.instructions.foldl addInstruction stored.instructions := by
  unfold merge refresh
  rw [foldl_add]

theorem recordsOf_merge (code : UInt64) (stored incoming : Document) :
    recordsOf code (stored.merge incoming).instructions =
      (recordsOf code incoming.instructions).foldl supersedeFirst
        (recordsOf code stored.instructions) := by
  rw [instructions_merge, recordsOf_foldl_addInstruction]

theorem fields_merge (stored incoming : Document) :
    (stored.merge incoming).name = stored.name ∧ (stored.merge incoming).version = stored.version ∧
      (stored.merge incoming).metadata.origin =
        (if incoming.metadata.origin = unknownOrigin then stored.metadata.origin
          else incoming.metadata.origin) ∧
      (stored.merge incoming).metadata.instructionEnum =
        incoming.metadata.instructionEnum.or stored.metadata.instructionEnum ∧
      (stored.merge incoming).metadata.imports = incoming.metadata.imports := by
  simp only [merge, refresh, foldl_add, and_self]

/-- **Merging, opcode by opcode.** An opcode that is not incoming keeps its records. An incoming
opcode has in the first place its last incoming record, with the last account list that is known of
the first stored record and the incoming ones. Further stored records of the opcode stay, so their
number changes only if there was none. Of the rest of the document, a merge takes over what is known
of the newer one, and keeps name and version. -/
theorem merge_opcode_by_opcode (stored incoming : Document) (code : UInt64) :
    let merged := stored.merge incoming
    let earlier := recordsOf code stored.instructions
    let newer := recordsOf code incoming.instructions
    (newer = [] → firstOf code merged.instructions = firstOf code stored.instructions) ∧
      (∀ last, newer.getLast? = some last →
        ∃ first, firstOf code merged.instructions = some first ∧ first.name = last.name ∧
          first.inputs = last.inputs ∧
          first.accounts =
            lastAccounts ((firstOf code stored.instructions).toList ++ newer)) ∧
      (earlier ≠ [] → (recordsOf code merged.instructions).length = earlier.length) ∧
      (earlier = [] → newer ≠ [] → (recordsOf code merged.instructions).length = 1) ∧
      merged.name = stored.name ∧ merged.version = stored.version ∧
      (incoming.metadata.origin = unknownOrigin →
        merged.metadata.origin = stored.metadata.origin) ∧
      (incoming.metadata.origin ≠ unknownOrigin →
        merged.metadata.origin = incoming.metadata.origin) ∧
      (incoming.metadata.instructionEnum = none →
        merged.metadata.instructionEnum = stored.metadata.instructionEnum) ∧
      (incoming.metadata.instructionEnum ≠ none →
        merged.metadata.instructionEnum = incoming.metadata.instructionEnum) ∧
      merged.metadata.imports = incoming.metadata.imports := by
  intro merged earlier newer
  have hrecords : recordsOf code merged.instructions = newer.foldl supersedeFirst earlier :=
    recordsOf_merge code stored incoming
  -- either nothing is incoming, or the incoming records end in a last one
  have hcases : newer = [] ∨ ∃ before last, newer = before ++ [last] := newer.eq_nil_or_concat'
  have hlength : newer ≠ [] →
      (recordsOf code merged.instructions).length = earlier.tail.length + 1 := by
    intro hne
    obtain ⟨before, last, heq⟩ := hcases.resolve_left hne
    rw [hrecords, heq, foldl_supersedeFirst, List.length_cons]
  obtain ⟨hname, hversion, horigin, henum, himports⟩ := fields_merge stored incoming
  refine ⟨?_, ?_, ?_, ?_, hname, hversion, ?_, ?_, ?_, ?_, himports⟩
  · intro hnil
    rw [← head?_recordsOf, ← head?_recordsOf, hrecords, hnil]
    rfl
  · intro last hlast
    obtain ⟨before, hbefore⟩ := List.getLast?_eq_some_iff.mp hlast
    refine ⟨{ last with accounts := lastAccounts (earlier.head?.toList ++ newer) },
      ?_, rfl, rfl, ?_⟩
    · rw [← head?_recordsOf, hrecords, hbefore, foldl_supersedeFirst]
      rfl
    · rw [← head?_recordsOf]
  · intro hne
    rcases hcases with hnil | ⟨before, last, heq⟩
    · rw [hrecords, hnil]
      rfl
    · rw [hlength (by simp [heq]), List.length_tail]
      have := List.length_pos_iff.mpr hne
      omega
  · intro hnil hne
    rw [hlength hne, hnil]
    rfl
  · intro hunknown
    rw [horigin, if_pos hunknown]
  · intro hknown
    rw [horigin, if_neg hknown]
  · intro hnone
    rw [henum, hnone, Option.none_or]
  · intro hsome
    obtain ⟨name, hname⟩ := Option.ne_none_iff_exists'.mp hsome
    rw [henum, hname, Option.some_or]

/-! ### Order -/

/-- The opcodes of a list, in order. -/
def codes (instructions : List Instruction) : List UInt64 :=
  instructions.map Instruction.code

/-- The opcodes of a list do not decrease. -/
def Ascending (instructions : List Instruction) : Prop :=
  (codes instructions).Pairwise (· ≤ ·)

/-- The opcodes of a list increase strictly. -/
def Ordered (instructions : List Instruction) : Prop :=
  instructions.Pairwise fun first second => first.code < second.code

theorem any_code_iff {instructions : List Instruction} {incoming : Instruction} :
    (instructions.any fun stored => stored.code = incoming.code) = true ↔
      incoming.code ∈ codes instructions := by
  simp [codes]

theorem codes_replaceFirst (incoming : Instruction) (instructions : List Instruction) :
    codes (replaceFirst incoming instructions) = codes instructions := by
  unfold codes
  induction instructions with
  | nil => rfl
  | cons stored rest ih =>
    by_cases hc : stored.code = incoming.code
    · rw [replaceFirst, if_pos hc, List.map_cons, List.map_cons, code_supersede, hc]
    · rw [replaceFirst, if_neg hc, List.map_cons, List.map_cons, ih]

theorem ordered_iff_codes {instructions : List Instruction} :
    Ordered instructions ↔ (codes instructions).Pairwise (· < ·) :=
  List.pairwise_map.symm

theorem ordered_iff {instructions : List Instruction} :
    Ordered instructions ↔ Ascending instructions ∧ (codes instructions).Nodup := by
  rw [ordered_iff_codes, Ascending, List.Nodup, ← List.pairwise_and_iff]
  refine ⟨fun h => h.imp ?_, fun h => h.imp ?_⟩
  · intro first second hlt
    exact ⟨UInt64.le_of_lt hlt, UInt64.ne_of_lt hlt⟩
  · intro first second hboth
    exact UInt64.lt_of_le_of_ne hboth.1 hboth.2

theorem ascending_sortByCode (instructions : List Instruction) :
    Ascending (sortByCode instructions) := by
  have hle : (sortByCode instructions).Pairwise fun first second =>
      decide (first.code ≤ second.code) = true := by
    refine List.pairwise_mergeSort (fun a b c hab hbc => ?_) (fun a b => ?_) instructions
    · simp only [decide_eq_true_eq] at hab hbc ⊢
      exact UInt64.le_trans hab hbc
    · simpa using UInt64.le_total a.code b.code
  exact List.pairwise_map.mpr (hle.imp fun hboth => by simpa using hboth)

theorem perm_codes_sortByCode (instructions : List Instruction) :
    (codes (sortByCode instructions)).Perm (codes instructions) :=
  (List.mergeSort_perm instructions _).map Instruction.code

/-- **One record** keeps the order. -/
theorem ordered_addInstruction {instructions : List Instruction} (h : Ordered instructions)
    (incoming : Instruction) : Ordered (addInstruction instructions incoming) := by
  unfold addInstruction
  split_ifs with hany
  · rw [ordered_iff_codes, codes_replaceFirst]
    exact ordered_iff_codes.mp h
  · refine ordered_iff.mpr ⟨ascending_sortByCode _, ?_⟩
    have hcodes : (codes (sortByCode (instructions ++ [incoming]))).Perm
        (incoming.code :: codes instructions) := by
      refine (perm_codes_sortByCode _).trans ?_
      rw [codes, List.map_append, List.map_singleton]
      exact List.perm_append_singleton _ _
    rw [hcodes.nodup_iff, List.nodup_cons]
    exact ⟨fun hmem => hany (any_code_iff.mpr hmem), (ordered_iff.mp h).2⟩

theorem ordered_foldl_addInstruction (records : List Instruction) {instructions : List Instruction}
    (h : Ordered instructions) : Ordered (records.foldl addInstruction instructions) := by
  induction records generalizing instructions with
  | nil => exact h
  | cons record records ih => exact ih (ordered_addInstruction h record)

theorem ordered_merge {stored : Document} (h : Ordered stored.instructions) (incoming : Document) :
    Ordered (stored.merge incoming).instructions := by
  rw [instructions_merge]
  exact ordered_foldl_addInstruction _ h

theorem instructions_ofAnalysis (name : String) (analysis : Analysis) :
    (ofAnalysis name analysis).instructions = analysis.instructions.foldl addInstruction [] := by
  unfold ofAnalysis refresh
  rw [foldl_add]
  rfl

/-- The document of an analysis is ordered, whatever the order of the recovered opcodes. -/
theorem ordered_ofAnalysis (name : String) (analysis : Analysis) :
    Ordered (ofAnalysis name analysis).instructions := by
  rw [instructions_ofAnalysis]
  exact ordered_foldl_addInstruction _ List.Pairwise.nil

/-! ### Nothing is lost -/

/-- Every opcode of `earlier` is one of `later`, with its accounts known if they were. -/
def Preserved (earlier later : List Instruction) : Prop :=
  ∀ record ∈ earlier, ∃ kept ∈ later, kept.code = record.code ∧
    (record.accounts.isSome → kept.accounts.isSome)

theorem Preserved.refl (instructions : List Instruction) : Preserved instructions instructions :=
  fun record h => ⟨record, h, rfl, id⟩

theorem Preserved.trans {first second third : List Instruction} (h : Preserved first second)
    (h' : Preserved second third) : Preserved first third := by
  intro record hrecord
  obtain ⟨kept, hkept, hcode, haccounts⟩ := h record hrecord
  obtain ⟨last, hlast, hcode', haccounts'⟩ := h' kept hkept
  exact ⟨last, hlast, hcode'.trans hcode, fun hs => haccounts' (haccounts hs)⟩

theorem preserved_replaceFirst (incoming : Instruction) (instructions : List Instruction) :
    Preserved instructions (replaceFirst incoming instructions) := by
  induction instructions with
  | nil => exact Preserved.refl _
  | cons stored rest ih =>
    intro record hrecord
    by_cases hc : stored.code = incoming.code
    · rw [replaceFirst, if_pos hc]
      rcases List.mem_cons.mp hrecord with rfl | hrecord
      · refine ⟨supersede record incoming, by simp, hc.symm, fun hs => ?_⟩
        cases h : incoming.accounts <;> simp [supersede, h, hs]
      · exact ⟨record, by simp [hrecord], rfl, id⟩
    · rw [replaceFirst, if_neg hc]
      rcases List.mem_cons.mp hrecord with rfl | hrecord
      · exact ⟨record, by simp, rfl, id⟩
      · obtain ⟨kept, hkept, hboth⟩ := ih record hrecord
        exact ⟨kept, by simp [hkept], hboth⟩

theorem preserved_addInstruction (instructions : List Instruction) (incoming : Instruction) :
    Preserved instructions (addInstruction instructions incoming) := by
  unfold addInstruction
  split_ifs
  · exact preserved_replaceFirst incoming instructions
  · intro record hrecord
    refine ⟨record, ?_, rfl, id⟩
    rw [sortByCode, List.mem_mergeSort]
    simp [hrecord]

/-- **A merge** takes nothing away. -/
theorem preserved_merge (stored incoming : Document) :
    Preserved stored.instructions (stored.merge incoming).instructions := by
  rw [instructions_merge]
  generalize stored.instructions = instructions
  induction incoming.instructions generalizing instructions with
  | nil => exact Preserved.refl _
  | cons record records ih => exact (preserved_addInstruction instructions record).trans (ih _)

end AbiRecovery.Document
