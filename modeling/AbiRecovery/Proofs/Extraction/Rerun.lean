import AbiRecovery.Proofs.Abi.MergeLaws
import AbiRecovery.Proofs.Extraction.History

/-!
# Running again

A second run of the extraction on the same tree finds stored what the first run returned. Merging
the same analysis into it changes nothing (`update_update`), also where nothing was stored at first:
the document of an analysis is what is merged into an empty one (`merge_empty_ofAnalysis`). The file
can be written again without a directory being made, so the second run succeeds as well and leaves
the disk as it is (`outcome_extract_again`).

The tree is the same for both runs unless the document was written over it (`Saved.readText_other`).
-/

namespace AbiRecovery

open Document

namespace Document

/-! ### The same document again -/

theorem mergeEvent_of_merge_eq {stored incoming : Document} (h : stored.merge incoming = stored) :
    stored.mergeEvent incoming = .unchanged stored.name := by
  simp only [mergeEvent, h, if_true]

theorem merge_empty_ofAnalysis (name : String) (analysis : Analysis) :
    (empty name).merge (ofAnalysis name analysis) = ofAnalysis name analysis := by
  have hlist : (analysis.instructions.foldl addInstruction []).foldl addInstruction [] =
      analysis.instructions.foldl addInstruction [] := by
    refine foldl_addInstruction_congr (fun code => ?_) fun code => ?_
    · rw [mem_codes_foldl_addInstruction, codes, List.map_nil, List.mem_nil_iff, false_or]
    · rw [recordsOf_foldl_addInstruction, recordsOf, List.filter_nil,
        foldl_supersedeFirst_grouped (by simp), List.nil_append]
  rw [merge_eq]
  simp only [instructions_ofAnalysis]
  simp only [ofAnalysis, refresh, foldl_add, empty, hlist, Option.or_none]
  split_ifs with horigin
  · rw [horigin]
  · rfl

/-- **A second update** with the same analysis changes nothing, whatever was stored at first. -/
theorem update_update (name : String) (analysis : Analysis) (stored : Option Document) :
    (ofAnalysis name analysis).update (some ((ofAnalysis name analysis).update stored)) =
      (ofAnalysis name analysis).update stored := by
  cases stored with
  | none =>
    have htwice := merge_merge_self (empty name) (ofAnalysis name analysis)
    rw [merge_empty_ofAnalysis] at htwice
    exact htwice
  | some document => exact merge_merge_self document _

end Document

/-! ### The tree -/

theorem Saved.lookup_other {disk later : Disk} {path other : String} {content : ByteArray}
    {entry : Entry} (h : Saved disk path content later)
    (hplace : disk.destination other ≠ disk.destination path)
    (hlookup : disk.lookup other = .ok entry) : later.lookup other = .ok entry := by
  obtain ⟨-, around, made, hgrown, hmake, hwrite⟩ := h
  have haround : ∀ text, around.destination text = disk.destination text :=
    hgrown.keeps.destination
  have hmade : ∀ text, made.destination text = disk.destination text := by
    intro text
    rw [(Disk.keeps_writeBytes hmake).destination, haround]
  have htarget := disk.destination_absolute path
  refine Disk.lookup_writeBytes_of_ne hwrite ?_ (Disk.lookup_writeBytes_of_ne hmake ?_ ?_)
  · rw [hmade, hmade, htarget]
    exact hplace
  · rw [haround, haround, htarget]
    exact hplace
  · exact hgrown.lookup hlookup

theorem Saved.readText_other {disk later : Disk} {path other text : String} {content : ByteArray}
    (h : Saved disk path content later) (hplace : disk.destination other ≠ disk.destination path)
    (hread : disk.readText other = .ok text) : later.readText other = .ok text := by
  unfold Disk.readText at hread ⊢
  cases hlookup : disk.lookup other with
  | error fault =>
    rw [hlookup] at hread
    cases hread
  | ok entry =>
    rw [hlookup] at hread
    rw [h.lookup_other hplace hlookup]
    exact hread

/-! ### The second run -/

/-- **A second run** on the same tree succeeds, returns the same document, reports that nothing
changed, and leaves the disk as it is. -/
theorem outcome_extract_again {tree name path : String} {world middle start : World}
    {document : Document}
    (h : outcome (extract tree name (some path)) world = (.ok document, middle))
    (hdisk : start.disk = middle.disk)
    (htree : start.disk.readText tree = world.disk.readText tree) :
    ∃ last, outcome (extract tree name (some path)) start = (.ok document, last) ∧
      (∀ location, last.disk.get? location = start.disk.get? location) ∧
      last.disk.lookup path = .ok (.file document.render.toUTF8) ∧
      ∃ before after,
        last.events = start.events ++ before ++ .unchanged document.name :: after := by
  rcases outcome_extract h with ⟨failure, hfailure, -⟩ |
    ⟨content, analysis, events, stored, _, hread, hanalysis, -, rfl, hok, hsaved⟩
  · cases hfailure
  cases hok
  set document := (ofAnalysis name analysis).update stored with hdocument
  rw [← hdisk] at hsaved
  have hstored : start.disk.stored path = .ok (some document) := by
    have hstores : Stores start.disk path (some document) := hsaved.lookup
    exact hstores.stored_eq
  have hagain : (ofAnalysis name analysis).update (some document) = document :=
    update_update name analysis stored
  have hevent : (ofAnalysis name analysis).updateEvents (some document) =
      [.unchanged document.name] :=
    congrArg (fun event => [event]) (mergeEvent_of_merge_eq hagain)
  obtain ⟨last, hsave, hevents, hentries⟩ := outcome_saveDocument_again
    (show Saved world.disk path _ (start.reported
      (.reading tree :: events ++ [.unchanged document.name])).disk from hsaved) document
  set target := FilePath.absolute start.disk.workingPath path
  refine ⟨last, ?_, fun location => ?_, ?_, .reading tree :: events,
    [.saving target, .wrote document.render.utf8ByteSize target], ?_⟩
  · rw [outcome_extract_eq, htree, hread]
    simp only [hanalysis, hstored, hagain, hevent]
    rw [outcome_bind, hsave]
    rfl
  · rw [hentries, World.disk_reported]
    split_ifs with heq
    · rw [← heq, Disk.get?_destination hsaved.lookup]
    · rfl
  · rcases outcome_saveDocument hsave with ⟨_, hfailure, -⟩ | ⟨-, hsaved'⟩
    · cases hfailure
    · exact hsaved'.lookup
  · rw [hevents]
    simp only [World.reported, List.append_assoc, List.cons_append, List.nil_append, target]

/-- **Running again changes nothing.** A document that is merged a second time leaves the merged
document as it is, in every field, and is reported as unchanged. And after a run of the extraction
that succeeds, whatever was stored before it, a second run with the same tree, name and output path
succeeds as well: it returns the same document, leaves the stored file and all else on the disk
byte for byte, and reports that the document is unchanged. The tree is the same for the second run
whenever the output path does not name its place. -/
theorem rerun_changes_nothing :
    (∀ stored incoming : Document,
      (stored.merge incoming).merge incoming = stored.merge incoming ∧
        (stored.merge incoming).mergeEvent incoming =
          .unchanged (stored.merge incoming).name) ∧
      ∀ (tree name path : String) (world middle : World) (document : Document),
        outcome (extract tree name (some path)) world = (.ok document, middle) →
          (world.disk.destination tree ≠ world.disk.destination path →
            middle.disk.readText tree = world.disk.readText tree) ∧
          ∀ start : World, start.disk = middle.disk →
            start.disk.readText tree = world.disk.readText tree →
              ∃ last, outcome (extract tree name (some path)) start = (.ok document, last) ∧
                (∃ content, middle.disk.lookup path = .ok (.file content) ∧
                  last.disk.lookup path = .ok (.file content)) ∧
                (∀ location, last.disk.get? location = middle.disk.get? location) ∧
                ∃ before after,
                  last.events = start.events ++ before ++ .unchanged document.name :: after := by
  refine ⟨fun stored incoming => ?_, fun tree name path world middle document hfirst => ⟨?_, ?_⟩⟩
  · have htwice := merge_merge_self stored incoming
    exact ⟨htwice, mergeEvent_of_merge_eq htwice⟩
  · intro hplace
    rcases outcome_extract hfirst with ⟨_, hfailure, -⟩ |
      ⟨content, _, _, _, _, hread, -, -, -, -, hsaved⟩
    · cases hfailure
    · rw [hsaved.readText_other hplace hread, hread]
  · intro start hdisk htree
    obtain ⟨last, hrun, hentries, hlookup, hreport⟩ := outcome_extract_again hfirst hdisk htree
    refine ⟨last, hrun, ⟨_, ?_, hlookup⟩, fun location => ?_, hreport⟩
    · rcases outcome_extract hfirst with ⟨_, hfailure, -⟩ |
        ⟨_, _, _, _, _, -, -, -, -, hok, hsaved⟩
      · cases hfailure
      · cases hok
        exact hsaved.lookup
    · rw [hentries, hdisk]

/-- A run on a disk with a document that is stored out of order, its records written as lists. -/
def swappedAttempt : Attempt :=
  ⟨"tree", "shop", { disk := treeDisk.put "/home/abi" (.file
    "[\"shop\",\"1\",[[1,\"B\",[]],[0,\"A\",[]]],[\"enum\",null,\"\"]]".toUTF8) }⟩

theorem succeeded_swappedAttempt : swappedAttempt.succeeded "abi" = true := by decide +kernel

theorem rerun_on_swapped_document :
    let run := swappedAttempt
    run.succeeded "abi" = true ∧
      run.world.disk.destination run.tree ≠ run.world.disk.destination "abi" ∧
      ∃ document last, run.result "abi" = .ok document ∧
        outcome (extract run.tree run.name (some "abi")) { disk := (run.after "abi").disk } =
          (.ok document, last) ∧
        ∀ location, last.disk.get? location = (run.after "abi").disk.get? location := by
  intro run
  have hsucceeded : run.succeeded "abi" = true := succeeded_swappedAttempt
  have hplace : run.world.disk.destination run.tree ≠ run.world.disk.destination "abi" := by
    decide +kernel
  have hfirst := run.outcome_eq "abi"
  refine ⟨hsucceeded, hplace, ?_⟩
  cases hresult : run.result "abi" with
  | error failure =>
    rw [Attempt.succeeded, hresult] at hsucceeded
    cases hsucceeded
  | ok document =>
    rw [hresult] at hfirst
    obtain ⟨htree, hagain⟩ := rerun_changes_nothing.2 _ _ _ _ _ _ hfirst
    obtain ⟨last, hrun, -, hentries, -⟩ :=
      hagain { disk := (run.after "abi").disk } rfl (htree hplace)
    exact ⟨document, last, rfl, hrun, hentries⟩

end AbiRecovery
