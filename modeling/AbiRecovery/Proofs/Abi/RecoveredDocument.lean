import AbiRecovery.Proofs.Abi.MergeLaws
import AbiRecovery.Proofs.Program.DispatchRecovery
import AbiRecovery.Proofs.Program.EnumRecovery

/-!
# The document of an analysis

The instructions of an analysis are taken over into an empty document one by one, with the list put
in order whenever a new opcode comes in. As long as the opcodes are distinct no record meets another
one, so each is taken over as it is (`recordsOf_taken`), and the list is the recovered one in the
order of the opcodes (`taken_eq_sortByCode`). If an opcode is repeated, a record is lost.

The opcodes of an enum are numbered in order. As long as they fit 64 bits they increase
(`ordered_of_enum`), and there is nothing to sort (`taken_of_ordered`).
-/

namespace AbiRecovery.Document

open AbiRecovery.Tree

/-! ### Distinct opcodes -/

theorem recordsOf_taken {records : List Instruction} (h : (codes records).Nodup) (code : UInt64) :
    recordsOf code (records.foldl addInstruction []) = recordsOf code records := by
  have hsingle : (recordsOf code records).length ≤ 1 := by
    rw [← count_codes]
    exact List.nodup_iff_count_le_one.mp h code
  rw [recordsOf_foldl_addInstruction]
  rcases hrecords : recordsOf code records with _ | ⟨record, _ | ⟨second, rest⟩⟩
  · rfl
  · rfl
  · rw [hrecords, List.length_cons, List.length_cons] at hsingle
    omega

theorem perm_sortByCode (instructions : List Instruction) :
    (sortByCode instructions).Perm instructions :=
  List.mergeSort_perm instructions _

/-- **Records of distinct opcodes** are put in the order of their opcodes. -/
theorem taken_eq_sortByCode {records : List Instruction} (h : (codes records).Nodup) :
    records.foldl addInstruction [] = sortByCode records := by
  have hsame : ∀ code, recordsOf code (records.foldl addInstruction []) =
      recordsOf code (sortByCode records) := by
    intro code
    rw [recordsOf_taken h, recordsOf_sortByCode]
  have htaken : Ascending (records.foldl addInstruction []) :=
    ascending_foldl_addInstruction (Or.inl List.Pairwise.nil)
  exact eq_of_codes_eq (codes_eq_of_ascending htaken (ascending_sortByCode records) hsame) hsame

/-- A record is lost exactly if an opcode is repeated. -/
theorem perm_taken_iff {records : List Instruction} :
    (records.foldl addInstruction []).Perm records ↔ (codes records).Nodup := by
  constructor
  · intro hperm
    have htaken : Ordered (records.foldl addInstruction []) :=
      ordered_foldl_addInstruction records List.Pairwise.nil
    exact (hperm.map Instruction.code).nodup_iff.mp (ordered_iff.mp htaken).2
  · intro hdistinct
    rw [taken_eq_sortByCode hdistinct]
    exact perm_sortByCode records

theorem taken_of_ordered {records : List Instruction} (h : Ordered records) :
    records.foldl addInstruction [] = records := by
  rw [taken_eq_sortByCode (ordered_iff.mp h).2, sortByCode]
  exact List.mergeSort_of_pairwise (h.imp fun hlt => decide_eq_true (UInt64.le_of_lt hlt))

/-! ### Numbered opcodes -/

theorem length_le_of_nodup {instructions : List Instruction} (h : (codes instructions).Nodup) :
    instructions.length ≤ UInt64.size := by
  have hnumbers : ((codes instructions).map UInt64.toNat).Nodup :=
    h.map fun _ _ => UInt64.toNat_inj.mp
  have hbounded : (codes instructions).map UInt64.toNat ⊆ List.range UInt64.size := by
    intro number hnumber
    obtain ⟨code, -, rfl⟩ := List.mem_map.mp hnumber
    exact List.mem_range.mpr code.toNat_lt_size
  have hlength := (List.subperm_of_subset hnumbers hbounded).length_le
  rwa [List.length_map, codes, List.length_map, List.length_range] at hlength

theorem ordered_of_enum {file : File} {enumName : String} {selection : EnumSelection}
    (h : (Analysis.ofFile file).source = .enum enumName selection)
    (hsize : (Analysis.ofFile file).instructions.length ≤ UInt64.size) :
    Ordered (Analysis.ofFile file).instructions := by
  have hsource : Assembly.source (file.enums.filterMap EnumDef.ofItem?)
      (Dispatch.ofImpls file.impls) = .enum enumName selection := h
  unfold Assembly.source at hsource
  split at hsource
  · next enum selection' hselect =>
    obtain ⟨item, -, hitem⟩ := selectedItem_of_selectEnum hselect
    have hinstructions : (Analysis.ofFile file).instructions =
        (EnumDef.variantsOf item.entries).map (Assembly.variantInstruction
          (Catalog.ofStructs (Analysis.structDefs file))
          (file.functions.filterMap Builder.ofFunction?) enum.name) := by
      simp only [Analysis.ofFile, Assembly.instructions, hselect, (EnumDef.name_of_ofItem? hitem).2]
    have hrecovered := variants_recovered file (file.functions.filterMap Builder.ofFunction?)
      enum.name item.entries
    rw [← hinstructions] at hrecovered
    have hnumbers : ((Analysis.ofFile file).instructions.map
        fun instruction => instruction.code.toNat).Pairwise (· < ·) := by
      rw [codes_of_recovered hrecovered hsize]
      exact List.pairwise_lt_range
    exact (List.pairwise_map.mp hnumbers).imp UInt64.lt_iff_toNat_lt.mpr
  · split_ifs at hsource

/-! ### Documents -/

/-- **The document of an analysis** loses nothing. Its opcodes increase, and they are those of the
recovered instructions. It has the recovered records, each as it was, exactly if their opcodes are
distinct, and then in the order of the opcodes. The opcodes of an enum are distinct, unless there
are more than numbers of 64 bits, and its instructions keep their order. -/
theorem document_of_recovered (name : String) (file : File) :
    let recovered := (Analysis.ofFile file).instructions
    let stored := (ofAnalysis name (Analysis.ofFile file)).instructions
    Ordered stored ∧ (∀ code, code ∈ codes stored ↔ code ∈ codes recovered) ∧
      (stored.Perm recovered ↔ (codes recovered).Nodup) ∧
      ((codes recovered).Nodup → stored = sortByCode recovered) ∧
      ∀ enumName selection, (Analysis.ofFile file).source = .enum enumName selection →
        ((codes recovered).Nodup ↔ recovered.length ≤ UInt64.size) ∧
          (stored = recovered ↔ recovered.length ≤ UInt64.size) := by
  intro recovered stored
  have hstored : stored = recovered.foldl addInstruction [] :=
    instructions_ofAnalysis name (Analysis.ofFile file)
  refine ⟨ordered_ofAnalysis name _, fun code => ?_, ?_, fun hdistinct => ?_, ?_⟩
  · rw [hstored, mem_codes_foldl_addInstruction]
    simp [codes]
  · rw [hstored]
    exact perm_taken_iff
  · rw [hstored]
    exact taken_eq_sortByCode hdistinct
  · intro enumName selection hsource
    have hordered : recovered.length ≤ UInt64.size → Ordered recovered := ordered_of_enum hsource
    refine ⟨⟨length_le_of_nodup, fun hsize => (ordered_iff.mp (hordered hsize)).2⟩, ?_, ?_⟩
    · intro hsame
      rw [hstored] at hsame
      exact length_le_of_nodup (perm_taken_iff.mp (List.Perm.of_eq hsame))
    · intro hsize
      rw [hstored]
      exact taken_of_ordered (hordered hsize)

/-- The opcodes of a dispatch, the higher one first, are put in order. -/
theorem document_of_tagFile :
    codes (Analysis.ofFile tagFile).instructions = [10, 3] ∧
      (ofAnalysis "tag" (Analysis.ofFile tagFile)).instructions.Perm
        (Analysis.ofFile tagFile).instructions ∧
      codes (ofAnalysis "tag" (Analysis.ofFile tagFile)).instructions = [3, 10] := by
  have hcodes : codes (Analysis.ofFile tagFile).instructions = [10, 3] := by decide +kernel
  obtain ⟨hordered, -, hperm, -, -⟩ := document_of_recovered "tag" tagFile
  have hkept := hperm.mpr (by rw [hcodes]; decide)
  have hswapped : (codes (ofAnalysis "tag" (Analysis.ofFile tagFile)).instructions).Perm
      [3, 10] := by
    refine (hkept.map Instruction.code).trans ?_
    rw [← codes, hcodes]
    exact List.Perm.swap 3 10 []
  refine ⟨hcodes, hkept, hswapped.eq_of_pairwise (fun _ _ _ _ => UInt64.le_antisymm)
    (ordered_iff.mp hordered).1 (by decide)⟩

end AbiRecovery.Document
