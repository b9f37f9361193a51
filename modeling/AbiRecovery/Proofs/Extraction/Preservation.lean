import AbiRecovery.Proofs.Extraction.Rerun

/-!
# What a run leaves alone

An extraction reads its tree and the stored document before it touches the disk. If one of them is
of no use (`Unusable`) it stops, and the disk is exactly as before (`Unusable.outcome_eq`). After
that only saving can fail (`Unsaved`): the working directory is gone, a directory around the file
cannot be made, or the file itself cannot. Then directories may have been added, but every file is
as it was (`Disk.Grown.filesKept`). A run that succeeds changes the file at its output path and no
other one (`Saved.filesKept`).
-/

namespace AbiRecovery

open AbiRecovery.Tree

/-! ### Reasons to stop -/

/-- Why an extraction **stops before it saves** anything: the tree cannot be read or is rejected, or
what is stored cannot be read or is rejected. -/
inductive Unusable (disk : Disk) (tree : String) : Option String → Failure → Prop
  | treeUnread {output : Option String} {fault : IoFault} (h : disk.readText tree = .error fault) :
      Unusable disk tree output (.readTree tree fault)
  | treeRejected {output : Option String} {content : String} {fault : Json.Fault}
      (hread : disk.readText tree = .ok content) (h : File.ofText content = .error fault) :
      Unusable disk tree output (.abi (.ofTreeFault fault))
  | storedUnread {path content : String} {file : File} {fault : IoFault}
      (hread : disk.readText tree = .ok content) (hfile : File.ofText content = .ok file)
      (hexists : disk.pathExists path = true) (h : disk.readText path = .error fault) :
      Unusable disk tree (some path) (.abi (.io fault))
  | storedRejected {path content text : String} {file : File} {fault : Json.Fault}
      (hread : disk.readText tree = .ok content) (hfile : File.ofText content = .ok file)
      (htext : disk.readText path = .ok text) (h : Document.ofText text = .error fault) :
      Unusable disk tree (some path) (.abi (.ofStoredFault path fault))

/-- Why a document **cannot be saved**: its path has no absolute form, and nothing is touched; or
there is no directory around its file and none can be made; or the disk, with the directories that
were made, refuses the file. -/
inductive Unsaved (disk : Disk) (path : String) (later : Disk) : Failure → Prop
  | workingDirectory (h : ¬ disk.Anchored path) (hsame : later = disk) :
      Unsaved disk path later (.workingDirectory .notFound)
  | directory {parent : String} {fault : IoFault}
      (hparent : FilePath.parent? (FilePath.absolute disk.workingPath path) = some parent)
      (h : disk.pathExists parent = false) :
      Unsaved disk path later (.createDirectory parent fault)
  | file {fault : IoFault}
      (h : later.writeBytes (FilePath.absolute disk.workingPath path) .empty = .error fault) :
      Unsaved disk path later (.createFile (FilePath.absolute disk.workingPath path) fault)

theorem pathExists_of_readText {disk : Disk} {path text : String}
    (h : disk.readText path = .ok text) : disk.pathExists path = true := by
  unfold Disk.readText at h
  unfold Disk.pathExists
  cases hlookup : disk.lookup path with
  | ok entry => rfl
  | error fault =>
    rw [hlookup] at h
    cases h

theorem stored_eq_error_iff {disk : Disk} {path : String} {failure : Failure} :
    disk.stored path = .error failure ↔
      (∃ fault, disk.pathExists path = true ∧ disk.readText path = .error fault ∧
        failure = .abi (.io fault)) ∨
      ∃ text fault, disk.readText path = .ok text ∧ Document.ofText text = .error fault ∧
        failure = .abi (.ofStoredFault path fault) := by
  unfold Disk.stored storedDocument
  cases hread : disk.readText path with
  | error fault => cases disk.pathExists path <;> simp [eq_comm]
  | ok text =>
    have hexists := pathExists_of_readText hread
    cases hdocument : Document.ofText text with
    | error fault => simp [hexists, hdocument, Except.mapError, Except.map, eq_comm]
    | ok document => simp [hexists, hdocument, Except.mapError, Except.map]

theorem outcome_extract_none (tree name : String) (world : World) :
    outcome (extract tree name none) world =
      match world.disk.readText tree with
      | .error fault => (.error (.readTree tree fault), world.reported [.reading tree])
      | .ok content =>
        match analyzeText content with
        | .error fault => (.error (.abi fault), world.reported [.reading tree])
        | .ok (analysis, events) =>
          (.ok (Document.ofAnalysis name analysis), world.reported (.reading tree :: events)) := by
  unfold extract
  rw [outcome_bind, outcome_log]
  simp only
  rw [outcome_bind, outcome_readText, World.disk_reported]
  simp only
  rw [outcome_bind, outcome_orFail]
  cases world.disk.readText tree with
  | error fault => rfl
  | ok content =>
    simp only [Except.mapError]
    rw [outcome_bind, outcome_analyze]
    rcases analyzeText content with fault | ⟨analysis, events⟩
    · rfl
    · simp only [World.reported_reported]
      rfl

theorem disk_extract_none (tree name : String) (world : World) :
    (outcome (extract tree name none) world).2.disk = world.disk := by
  rw [outcome_extract_none]
  split
  · rfl
  · split <;> rfl

/-- **Nothing is touched** by a run that stops before it saves. -/
theorem Unusable.outcome_eq {world : World} {tree : String} {output : Option String}
    {failure : Failure} (h : Unusable world.disk tree output failure) (name : String) :
    ∃ after, outcome (extract tree name output) world = (.error failure, after) ∧
      after.disk = world.disk := by
  cases h with
  | treeUnread h =>
    cases output with
    | none =>
      rw [outcome_extract_none, h]
      exact ⟨_, rfl, rfl⟩
    | some path =>
      rw [outcome_extract_eq, h]
      exact ⟨_, rfl, rfl⟩
  | @treeRejected output content fault hread h =>
    have hrejected : analyzeText content = .error (.ofTreeFault fault) := by
      simp only [analyzeText, h]
    cases output with
    | none =>
      rw [outcome_extract_none, hread]
      simp only [hrejected]
      exact ⟨_, rfl, rfl⟩
    | some path =>
      rw [outcome_extract_eq, hread]
      simp only [hrejected]
      exact ⟨_, rfl, rfl⟩
  | @storedUnread path content file fault hread hfile hexists h =>
    have hstored : world.disk.stored path = .error (.abi (.io fault)) :=
      stored_eq_error_iff.mpr (Or.inl ⟨fault, hexists, h, rfl⟩)
    rw [outcome_extract_eq, hread]
    simp only [analyzeText, hfile, hstored]
    exact ⟨_, rfl, rfl⟩
  | @storedRejected path content text file fault hread hfile htext h =>
    have hstored : world.disk.stored path = .error (.abi (.ofStoredFault path fault)) :=
      stored_eq_error_iff.mpr (Or.inr ⟨text, fault, htext, h, rfl⟩)
    rw [outcome_extract_eq, hread]
    simp only [analyzeText, hfile, hstored]
    exact ⟨_, rfl, rfl⟩

/-! ### Saving -/

/-- A program that always goes through, though its value may be a fault. -/
def GoesThrough {α : Type} (program : ExceptT Failure (StateM World) α) : Prop :=
  ∀ world, ∃ value, (outcome program world).1 = .ok value

theorem GoesThrough.bind {α β : Type} {program : ExceptT Failure (StateM World) α}
    {next : α → ExceptT Failure (StateM World) β} (h : GoesThrough program)
    (h' : ∀ value, GoesThrough (next value)) : GoesThrough (program >>= next) := by
  intro world
  obtain ⟨value, hvalue⟩ := h world
  rw [outcome_bind]
  split
  · next middle heq => exact h' _ middle
  · next heq =>
    rw [heq] at hvalue
    cases hvalue

theorem goesThrough_pure {α : Type} (value : α) : GoesThrough (pure value) :=
  fun _ => ⟨value, rfl⟩

theorem goesThrough_createInnermost (paths : List String) :
    GoesThrough (createInnermost paths) := by
  have haccept : ∀ path fault, GoesThrough (acceptDirectory path fault) := by
    intro path fault
    unfold acceptDirectory
    refine .bind (fun world => ⟨_, rfl⟩) fun found => ?_
    split_ifs
    · exact goesThrough_pure _
    · exact goesThrough_pure _
  have hcreate : ∀ path, GoesThrough (Host.createDirectory path) := fun path world => ⟨_, rfl⟩
  induction paths with
  | nil => exact goesThrough_pure _
  | cons path outer ih =>
    unfold createInnermost
    refine .bind (hcreate path) fun made => ?_
    split
    · exact goesThrough_pure _
    · refine .bind ih fun around => ?_
      split
      · exact goesThrough_pure _
      · refine .bind (hcreate path) fun again => ?_
        split
        · exact goesThrough_pure _
        · exact haccept _ _
    · exact haccept _ _

theorem outcome_ensureParent_error {path : String} {world after : World} {failure : Failure}
    (h : outcome (ensureParent path) world = (.error failure, after)) :
    ∃ parent fault, FilePath.parent? path = some parent ∧ world.disk.pathExists parent = false ∧
      failure = .createDirectory parent fault := by
  unfold ensureParent at h
  split at h
  · cases h
  next parent hparent =>
  rw [outcome_bind, outcome_pathExists] at h
  simp only at h
  split_ifs at h with hexists
  · cases h
  · rw [outcome_bind, outcome_log] at h
    simp only at h
    rcases outcome_bind_eq h with ⟨_, hstop, -⟩ | ⟨made, middle, -, hmade⟩
    · obtain ⟨value, hvalue⟩ := goesThrough_createInnermost (FilePath.ancestors parent)
        (world.reported [.creatingDirectory parent])
      rw [createDirectories] at hstop
      rw [hstop] at hvalue
      cases hvalue
    · rw [outcome_orFail] at hmade
      cases made with
      | ok _ => cases hmade
      | error fault =>
        cases hmade
        exact ⟨parent, fault, hparent, by simpa using hexists, rfl⟩

theorem outcome_saveDocument_error {document : Document} {path : String} {world after : World}
    {failure : Failure}
    (h : outcome (saveDocument document path) world = (.error failure, after)) :
    Unsaved world.disk path after.disk failure := by
  rcases saveDocument_cases h with
    ⟨hanchored, hfailure, hsame⟩ | ⟨_, hensure, hfailure⟩ | ⟨fault, -, hmake, hfailure⟩ |
      ⟨hresult, -⟩
  · cases hfailure
    exact .workingDirectory hanchored hsame
  · obtain ⟨parent, fault, hparent, hexists, rfl⟩ := outcome_ensureParent_error hensure
    cases hfailure
    exact .directory hparent hexists
  · cases hfailure
    exact .file hmake
  · cases hresult

/-! ### Files that stay -/

/-- The files of a disk are still there, with the same bytes, apart from those at certain places:
each one at its place, and each path that led to one still leads to it. -/
structure FilesKept (exempt : Set Location) (disk later : Disk) : Prop where
  get? : ∀ location ∉ exempt, ∀ content, disk.get? location = some (.file content) →
    later.get? location = some (.file content)
  lookup : ∀ path content, disk.destination path ∉ exempt →
    disk.lookup path = .ok (.file content) → later.lookup path = .ok (.file content)

theorem Disk.Grown.filesKept {disk later : Disk} (h : disk.Grown later) :
    FilesKept ∅ disk later := by
  refine ⟨fun location _ content hfile => ?_, fun path content _ hfile => h.lookup hfile⟩
  rcases h.entry location with hsame | ⟨hnone, -⟩
  · rw [hsame, hfile]
  · rw [hnone] at hfile
    cases hfile

/-- **Saving** changes the file at its place and no other one. -/
theorem Saved.filesKept {disk later : Disk} {path : String} {content : ByteArray}
    (h : Saved disk path content later) : FilesKept {disk.destination path} disk later := by
  refine ⟨fun location hplace bytes hfile => ?_,
    fun other bytes hplace hfile => h.lookup_other hplace hfile⟩
  obtain ⟨-, around, made, hgrown, hmake, hwrite⟩ := h
  have haround := hgrown.filesKept.get? location (Set.notMem_empty location) bytes hfile
  have hmade : ∀ text, made.destination text = disk.destination text := by
    intro text
    rw [(Disk.keeps_writeBytes hmake).destination, hgrown.keeps.destination]
  have hother : disk.destination path ≠ location := fun heq => hplace heq.symm
  rw [(Disk.writeBytes_eq_ok hwrite).2, Disk.get?_put, hmade, disk.destination_absolute,
    if_neg hother, (Disk.writeBytes_eq_ok hmake).2, Disk.get?_put, hgrown.keeps.destination,
    disk.destination_absolute, if_neg hother, haround]

/-! ### A whole run -/

/-- **The reasons are complete**: a run that fails stops before it saves, or cannot save. -/
theorem outcome_extract_error {tree name : String} {output : Option String} {world after : World}
    {failure : Failure}
    (h : outcome (extract tree name output) world = (.error failure, after)) :
    Unusable world.disk tree output failure ∨
      ∃ path, output = some path ∧ Unsaved world.disk path after.disk failure := by
  have hstop : ∀ reason, Unusable world.disk tree output reason →
      Unusable world.disk tree output failure := by
    intro reason hreason
    obtain ⟨_, hrun, -⟩ := hreason.outcome_eq name
    rw [hrun] at h
    cases h
    exact hreason
  cases hread : world.disk.readText tree with
  | error fault => exact Or.inl (hstop _ (.treeUnread hread))
  | ok content =>
    cases hfile : File.ofText content with
    | error fault => exact Or.inl (hstop _ (.treeRejected hread hfile))
    | ok file =>
      have hanalysis : analyzeText content =
          .ok (Analysis.ofFile file, Analysis.eventsOf file) := by simp only [analyzeText, hfile]
      cases output with
      | none =>
        rw [outcome_extract_none, hread] at h
        simp only [hanalysis] at h
        cases h
      | some path =>
        cases hstored : world.disk.stored path with
        | error reason =>
          rcases stored_eq_error_iff.mp hstored with
            ⟨fault, hexists, htext, rfl⟩ | ⟨text, fault, htext, hdocument, rfl⟩
          · exact Or.inl (hstop _ (.storedUnread hread hfile hexists htext))
          · exact Or.inl (hstop _ (.storedRejected hread hfile htext hdocument))
        | ok stored =>
          rw [outcome_extract_eq, hread] at h
          simp only [hanalysis, hstored] at h
          rcases outcome_bind_eq h with ⟨_, hsave, hfailure⟩ | ⟨_, _, -, hreturn⟩
          · cases hfailure
            have hunsaved := outcome_saveDocument_error hsave
            rw [World.disk_reported] at hunsaved
            exact Or.inr ⟨path, rfl, hunsaved⟩
          · cases hreturn

/-- **A run and the files on the disk.** If the tree cannot be read or is rejected, or the stored
document cannot be read or is rejected, the run fails for this reason and the disk is exactly as
before. There is no other reason to fail but that the document cannot be saved; and after any
failure the disk has some more directories at most, and all files as they were. A run that succeeds
without an output path leaves the disk as it is. With one, the file there holds the text of the
document that is returned, this document is what is loaded from it, and all other files are as they
were. -/
theorem extraction_keeps_files {tree name : String} {output : Option String} {world after : World}
    {result : Except Failure Document}
    (hrun : outcome (extract tree name output) world = (result, after)) :
    (∀ failure, Unusable world.disk tree output failure →
      result = .error failure ∧ after.disk = world.disk) ∧
    (∀ failure, result = .error failure →
      (Unusable world.disk tree output failure ∨
        ∃ path, output = some path ∧ Unsaved world.disk path after.disk failure) ∧
      world.disk.Grown after.disk ∧ FilesKept ∅ world.disk after.disk) ∧
    ∀ document, result = .ok document →
      (output = none → after.disk = world.disk) ∧
      ∀ path, output = some path →
        after.disk.lookup path = .ok (.file document.render.toUTF8) ∧
          outcome (loadDocument? path) after = (.ok (some document), after) ∧
          FilesKept {world.disk.destination path} world.disk after.disk := by
  have hnone : output = none → after.disk = world.disk := by
    rintro rfl
    rw [← disk_extract_none tree name world, hrun]
  refine ⟨?_, ?_, ?_⟩
  · intro failure h
    obtain ⟨last, hstop, hdisk⟩ := h.outcome_eq name
    rw [hrun, Prod.mk.injEq] at hstop
    obtain ⟨rfl, rfl⟩ := hstop
    exact ⟨rfl, hdisk⟩
  · rintro failure rfl
    have hgrown : world.disk.Grown after.disk := by
      cases output with
      | none =>
        rw [hnone rfl]
        exact .refl _
      | some path =>
        rcases outcome_extract hrun with ⟨_, -, hgrown⟩ | ⟨_, _, _, _, _, -, -, -, -, hok, -⟩
        · exact hgrown
        · cases hok
    exact ⟨outcome_extract_error hrun, hgrown, hgrown.filesKept⟩
  · rintro document rfl
    refine ⟨hnone, ?_⟩
    rintro path rfl
    rcases outcome_extract hrun with
      ⟨_, hfailure, -⟩ | ⟨_, _, _, _, _, -, -, -, -, hdocument, hsaved⟩
    · cases hfailure
    · cases hdocument
      have hstores : Stores after.disk path (some document) := hsaved.lookup
      refine ⟨hsaved.lookup, ?_, hsaved.filesKept⟩
      rw [outcome_loadDocument?, hstores.stored_eq]

/-- A disk with a tree, and with a stored document that is broken off. -/
def brokenDisk : Disk :=
  treeDisk.put "/home/abi" (.file "\x7b".toUTF8)

theorem unusable_brokenDisk :
    ∃ fault, Unusable brokenDisk "tree" (some "abi") (.abi (.ofStoredFault "abi" fault)) := by
  have htree : ((brokenDisk.readText "tree").toOption.bind fun content =>
      (File.ofText content).toOption).isSome = true := by decide +kernel
  have hstored : (brokenDisk.readText "abi").toOption = some "\x7b" := by decide +kernel
  have hdocument : (Document.ofText "\x7b").isOk = false := by decide +kernel
  cases hread : brokenDisk.readText "tree" with
  | error fault =>
    rw [hread] at htree
    cases htree
  | ok content =>
    rw [hread] at htree
    cases hfile : File.ofText content with
    | error fault =>
      simp [hfile, Except.toOption] at htree
    | ok file =>
      cases htext : brokenDisk.readText "abi" with
      | error fault =>
        rw [htext] at hstored
        cases hstored
      | ok text =>
        rw [htext] at hstored
        cases hstored
        cases hfault : Document.ofText "\x7b" with
        | ok document =>
          rw [hfault] at hdocument
          cases hdocument
        | error fault => exact ⟨fault, .storedRejected hread hfile htext hfault⟩

/-- A run on the disk with the broken document. -/
def brokenAttempt : Attempt :=
  ⟨"tree", "shop", { disk := brokenDisk }⟩

/-- The broken document stays as it is, whether the run is to update it or writes elsewhere. -/
theorem broken_document_stays :
    let run := brokenAttempt
    (∃ fault, Unusable run.world.disk run.tree (some "abi") (.abi (.ofStoredFault "abi" fault)) ∧
      run.result "abi" = .error (.abi (.ofStoredFault "abi" fault)) ∧
      (run.after "abi").disk = run.world.disk) ∧
    ∃ document, run.result "out/abi" = .ok document ∧
      outcome (loadDocument? "out/abi") (run.after "out/abi") =
        (.ok (some document), run.after "out/abi") ∧
      (run.after "out/abi").disk.get? "/home/abi" = some (.file "\x7b".toUTF8) := by
  intro run
  have hok : run.succeeded "out/abi" = true := by decide +kernel
  have hplace : "/home/abi" ∉ ({run.world.disk.destination "out/abi"} : Set Location) := by
    rw [Set.mem_singleton_iff]
    decide +kernel
  have hfile : run.world.disk.get? "/home/abi" = some (.file "\x7b".toUTF8) :=
    (Disk.get?_put _ _ _ _).trans (if_pos rfl)
  constructor
  · obtain ⟨fault, hunusable⟩ := unusable_brokenDisk
    obtain ⟨hfailure, hdisk⟩ := (extraction_keeps_files (run.outcome_eq "abi")).1 _ hunusable
    exact ⟨fault, hunusable, hfailure, hdisk⟩
  · cases hresult : run.result "out/abi" with
    | error failure =>
      rw [Attempt.succeeded, hresult] at hok
      cases hok
    | ok document =>
      obtain ⟨-, hload, hkept⟩ :=
        ((extraction_keeps_files (run.outcome_eq "out/abi")).2.2 document hresult).2 "out/abi" rfl
      exact ⟨document, rfl, hload, hkept.get? _ hplace _ hfile⟩

end AbiRecovery
