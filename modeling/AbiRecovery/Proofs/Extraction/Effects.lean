import AbiRecovery.Extraction
import AbiRecovery.Proofs.Store.Parent

/-!
# What a run does to the disk

A program on the world has an `outcome`: its result and the world after it. The outcome of a
sequence is that of its parts one after the other (`outcome_bind`, `outcome_bind_eq`), and each part
of an extraction has its own statement here. Reading a tree and loading a stored document leave the
disk alone; saving adds directories, and then either stops or writes the file
(`outcome_saveDocument`).

So an extraction that fails has added directories at most, and one that succeeds has stored the
document it returns (`outcome_extract`).
-/

namespace AbiRecovery

/-- What a program ends with in a world, and the world after it. -/
def outcome {α : Type} (program : ExceptT Failure (StateM World) α) (world : World) :
    Except Failure α × World :=
  program.run.run world

/-- The world with some more reports. -/
def World.reported (world : World) (events : List Event) : World :=
  { world with events := world.events ++ events }

@[simp] theorem World.disk_reported (world : World) (events : List Event) :
    (world.reported events).disk = world.disk := rfl

theorem World.reported_reported (world : World) (earlier later : List Event) :
    (world.reported earlier).reported later = world.reported (earlier ++ later) := by
  simp [World.reported]

section
variable {α β : Type} (world : World)

/-! ### Sequences -/

@[simp] theorem outcome_pure (value : α) :
    outcome (pure value : ExceptT Failure (StateM World) α) world = (.ok value, world) := rfl

theorem outcome_bind (program : ExceptT Failure (StateM World) α)
    (next : α → ExceptT Failure (StateM World) β) :
    outcome (program >>= next) world =
      match outcome program world with
      | (.ok value, middle) => outcome (next value) middle
      | (.error failure, after) => (.error failure, after) := by
  unfold outcome
  rw [ExceptT.run_bind, StateT.run_bind]
  rcases StateT.run program.run world with ⟨failure | value, after⟩ <;> rfl

/-- A sequence stops in its first part, or goes through it. -/
theorem outcome_bind_eq {world after : World} {program : ExceptT Failure (StateM World) α}
    {next : α → ExceptT Failure (StateM World) β} {result : Except Failure β}
    (h : outcome (program >>= next) world = (result, after)) :
    (∃ failure, outcome program world = (.error failure, after) ∧ result = .error failure) ∨
      ∃ value middle, outcome program world = (.ok value, middle) ∧
        outcome (next value) middle = (result, after) := by
  rw [outcome_bind] at h
  split at h
  · next value middle heq => exact Or.inr ⟨value, middle, heq, h⟩
  · next failure last heq =>
    cases h
    exact Or.inl ⟨failure, heq, rfl⟩

theorem outcome_orFail {ε : Type} (failure : ε → Failure) (result : Except ε α) :
    outcome (orFail failure result : ExceptT Failure (StateM World) α) world =
      (result.mapError failure, world) := by
  cases result <;> rfl

/-! ### Actions -/

@[simp] theorem outcome_log (event : Event) :
    outcome (Host.log event) world = (.ok (), world.reported [event]) := rfl

@[simp] theorem outcome_workingDirectory :
    outcome Host.workingDirectory world = (.ok world.disk.currentPath, world) := rfl

@[simp] theorem outcome_pathExists (path : String) :
    outcome (Host.pathExists path) world = (.ok (world.disk.pathExists path), world) := rfl

@[simp] theorem outcome_readText (path : String) :
    outcome (Host.readText path) world = (.ok (world.disk.readText path), world) := rfl

theorem outcome_createDirectory (path : String) :
    outcome (Host.createDirectory path) world =
      (.ok (world.update (world.disk.createDirectory path)).1,
        (world.update (world.disk.createDirectory path)).2) := rfl

theorem outcome_createFile (path : String) :
    outcome (Host.createFile path) world =
      (.ok (world.update (world.disk.writeBytes path ByteArray.empty)).1,
        (world.update (world.disk.writeBytes path ByteArray.empty)).2) := rfl

theorem outcome_writeText (path text : String) :
    outcome (Host.writeText path text) world =
      (.ok (world.update (world.disk.writeBytes path text.toUTF8)).1,
        (world.update (world.disk.writeBytes path text.toUTF8)).2) := rfl

theorem outcome_logAll (events : List Event) :
    outcome (logAll events) world = (.ok (), world.reported events) := by
  induction events generalizing world with
  | nil => simp [logAll, World.reported]
  | cons event events ih =>
    rw [logAll, outcome_bind, outcome_log]
    simp only [ih, World.reported_reported, List.singleton_append]

/-! ### Reading -/

theorem outcome_analyze (content : String) :
    outcome (analyze content) world =
      match analyzeText content with
      | .ok (analysis, events) => (.ok analysis, world.reported events)
      | .error fault => (.error (.abi fault), world) := by
  unfold analyze
  rw [outcome_bind, outcome_orFail]
  rcases analyzeText content with fault | ⟨analysis, events⟩
  · rfl
  · simp only [Except.mapError]
    rw [outcome_bind, outcome_logAll]
    rfl

/-- The document that is stored at a path of a disk. -/
def Disk.stored (disk : Disk) (path : String) : Except Failure (Option Document) :=
  if disk.pathExists path then
    match disk.readText path with
    | .error fault => .error (.abi (.io fault))
    | .ok content => ((storedDocument path content).mapError .abi).map some
  else .ok none

theorem outcome_loadDocument? (path : String) :
    outcome (loadDocument? path) world = (world.disk.stored path, world) := by
  unfold loadDocument? Disk.stored
  rw [outcome_bind, outcome_pathExists]
  simp only
  split_ifs
  · rw [outcome_bind, outcome_readText]
    simp only
    rw [outcome_bind, outcome_orFail]
    cases world.disk.readText path with
    | error fault => rfl
    | ok content =>
      simp only [Except.mapError]
      rw [map_eq_pure_bind, outcome_bind, outcome_orFail]
      cases storedDocument path content <;> rfl
  · rfl

/-- A document takes the place of a stored one, if there is one. -/
def Document.update (document : Document) : Option Document → Document
  | none => document
  | some stored => stored.merge document

/-- What is reported when a document takes the place of a stored one. -/
def Document.updateEvents (document : Document) : Option Document → List Event
  | none => []
  | some stored => [stored.mergeEvent document]

theorem outcome_mergeStored (document : Document) (path : String) :
    outcome (mergeStored document path) world =
      match world.disk.stored path with
      | .error failure => (.error failure, world)
      | .ok stored =>
        (.ok (document.update stored), world.reported (document.updateEvents stored)) := by
  unfold mergeStored
  rw [outcome_bind, outcome_loadDocument?]
  rcases world.disk.stored path with failure | stored | stored
  · rfl
  · simp [Document.update, Document.updateEvents, World.reported]
  · rfl

end

/-! ### Making directories -/

/-- A program that adds directories at most. -/
def Grows {α : Type} (program : ExceptT Failure (StateM World) α) : Prop :=
  ∀ world : World, world.disk.Grown (outcome program world).2.disk

section Grows
variable {α β : Type}

theorem Grows.of_disk_eq {program : ExceptT Failure (StateM World) α}
    (h : ∀ world, (outcome program world).2.disk = world.disk) : Grows program := by
  intro world
  rw [h world]
  exact Disk.Grown.refl _

theorem Grows.bind {program : ExceptT Failure (StateM World) α}
    {next : α → ExceptT Failure (StateM World) β} (h : Grows program)
    (h' : ∀ value, Grows (next value)) : Grows (program >>= next) := by
  intro world
  have hfirst := h world
  rw [outcome_bind]
  split
  · next value middle heq =>
    rw [heq] at hfirst
    exact hfirst.trans (h' value middle)
  · next failure after heq =>
    rw [heq] at hfirst
    exact hfirst

theorem Grows.pure (value : α) : Grows (pure value) := .of_disk_eq fun _ => rfl

theorem Grows.orFail {ε : Type} (failure : ε → Failure) (result : Except ε α) :
    Grows (AbiRecovery.orFail failure result) :=
  .of_disk_eq fun world => by rw [outcome_orFail]

theorem grows_createDirectory (path : String) : Grows (Host.createDirectory path) := by
  intro world
  rw [outcome_createDirectory]
  cases h : world.disk.createDirectory path with
  | ok later => exact Disk.grown_createDirectory h
  | error fault => exact Disk.Grown.refl _

theorem grows_acceptDirectory (path : String) (fault : IoFault) :
    Grows (acceptDirectory path fault) := by
  unfold acceptDirectory
  refine .bind (.of_disk_eq fun world => rfl) fun found => ?_
  split_ifs
  · exact .pure _
  · exact .pure _

theorem grows_createInnermost (paths : List String) : Grows (createInnermost paths) := by
  induction paths with
  | nil => exact .pure _
  | cons path outer ih =>
    unfold createInnermost
    refine .bind (grows_createDirectory path) fun made => ?_
    split
    · exact .pure _
    · refine .bind ih fun around => ?_
      split
      · exact .pure _
      · refine .bind (grows_createDirectory path) fun again => ?_
        split
        · exact .pure _
        · exact grows_acceptDirectory _ _
    · exact grows_acceptDirectory _ _

theorem grows_ensureParent (path : String) : Grows (ensureParent path) := by
  unfold ensureParent
  split
  · exact .pure _
  · refine .bind (.of_disk_eq fun _ => rfl) fun found => ?_
    split_ifs
    · exact .pure _
    · refine .bind (.of_disk_eq fun _ => rfl) fun _ => ?_
      exact .bind (grows_createInnermost _) fun made => .orFail _ _

end Grows

/-! ### Saving -/

/-- A file is **saved**: its path has an absolute form, directories were added, and the file was
made and then written. -/
def Saved (disk : Disk) (path : String) (content : ByteArray) (later : Disk) : Prop :=
  let target := FilePath.absolute disk.workingPath path
  disk.Anchored path ∧ ∃ around made, disk.Grown around ∧
    around.writeBytes target .empty = .ok made ∧ made.writeBytes target content = .ok later

theorem Saved.lookup {disk later : Disk} {path : String} {content : ByteArray}
    (h : Saved disk path content later) : later.lookup path = .ok (.file content) := by
  obtain ⟨-, around, made, hgrown, hmake, hwrite⟩ := h
  have hplace : disk.workingPath = made.workingPath := by
    unfold Disk.workingPath
    rw [(Disk.keeps_writeBytes hmake).workingDirectory, hgrown.workingDirectory]
  rw [hplace] at hwrite
  exact Disk.lookup_of_written hwrite

theorem outcome_resolvePath {world : World} {path : String} (h : world.disk.Anchored path) :
    outcome (resolvePath path) world =
      (.ok (FilePath.absolute world.disk.workingPath path), world) := by
  unfold resolvePath
  by_cases hpath : FilePath.isAbsolute path = true
  · rw [if_pos hpath, FilePath.absolute, if_pos hpath, outcome_pure]
  · have hdirectory := h.resolve_left hpath
    rw [if_neg hpath, outcome_bind, outcome_workingDirectory]
    simp only [Disk.currentPath, hdirectory]
    rfl

/-- Without its working directory a run stops before anything is reported or made. -/
theorem outcome_resolvePath_error {world : World} {path : String}
    (h : ¬ world.disk.Anchored path) :
    outcome (resolvePath path) world = (.error (.workingDirectory .notFound), world) := by
  obtain ⟨hpath, hdirectory⟩ := not_or.mp h
  have hcurrent : world.disk.currentPath = .error .notFound := by
    unfold Disk.currentPath
    split
    · next heq => exact absurd heq hdirectory
    · rfl
  unfold resolvePath
  rw [if_neg hpath, outcome_bind, outcome_workingDirectory, hcurrent]
  rfl

theorem outcome_makeFile (world : World) (path : String) :
    outcome (makeFile path) world =
      match world.disk.writeBytes path .empty with
      | .ok made => (.ok (), { world with disk := made })
      | .error fault =>
        (.error (.createFile path fault), world.reported [.createFailed path fault.message]) := by
  unfold makeFile
  rw [outcome_bind, outcome_createFile]
  cases world.disk.writeBytes path .empty <;> rfl

/-- **The ends of saving**: there is no working directory, no directory around the file, no file, or
the file is written. A file that could be made can be written, so there is no other end. -/
theorem saveDocument_cases {document : Document} {path : String} {world after : World}
    {result : Except Failure Unit}
    (h : outcome (saveDocument document path) world = (result, after)) :
    let target := FilePath.absolute world.disk.workingPath path
    (¬ world.disk.Anchored path ∧ result = .error (.workingDirectory .notFound) ∧
        after.disk = world.disk) ∨
      (∃ failure, outcome (ensureParent target) (world.reported [.saving target]) =
          (.error failure, after) ∧ result = .error failure) ∨
      (∃ fault, world.disk.Grown after.disk ∧
          after.disk.writeBytes target .empty = .error fault ∧
          result = .error (.createFile target fault)) ∨
      (result = .ok () ∧ Saved world.disk path document.render.toUTF8 after.disk) := by
  intro target
  unfold saveDocument at h
  by_cases hanchored : world.disk.Anchored path
  case neg =>
    rw [outcome_bind, outcome_resolvePath_error hanchored] at h
    cases h
    exact .inl ⟨hanchored, rfl, rfl⟩
  rw [outcome_bind, outcome_resolvePath hanchored] at h
  simp only at h
  rw [outcome_bind, outcome_log] at h
  simp only at h
  rcases outcome_bind_eq h with hensure | ⟨_, around, hensure, h⟩
  · exact .inr (.inl hensure)
  have hgrows := grows_ensureParent target (world.reported [.saving target])
  rw [hensure] at hgrows
  rw [outcome_bind, outcome_makeFile] at h
  cases hmake : around.disk.writeBytes target .empty with
  | error fault =>
    rw [hmake] at h
    cases h
    exact .inr (.inr (.inl ⟨fault, hgrows, hmake, rfl⟩))
  | ok made =>
    have hwrite := Disk.writeBytes_again hmake document.render.toUTF8
    rw [hmake] at h
    simp only at h
    rw [outcome_bind, outcome_writeText, hwrite] at h
    cases h
    exact .inr (.inr (.inr ⟨rfl, hanchored, around.disk, made, hgrows, hmake, hwrite⟩))

theorem outcome_saveDocument {document : Document} {path : String} {world after : World}
    {result : Except Failure Unit}
    (h : outcome (saveDocument document path) world = (result, after)) :
    (∃ failure, result = .error failure ∧ world.disk.Grown after.disk) ∨
      (result = .ok () ∧ Saved world.disk path document.render.toUTF8 after.disk) := by
  rcases saveDocument_cases h with
    ⟨-, rfl, hsame⟩ | ⟨failure, hensure, rfl⟩ | ⟨fault, hgrows, -, rfl⟩ | hsaved
  · rw [hsame]
    exact .inl ⟨_, rfl, .refl _⟩
  · have hgrows := grows_ensureParent (FilePath.absolute world.disk.workingPath path)
      (world.reported [.saving (FilePath.absolute world.disk.workingPath path)])
    rw [hensure] at hgrows
    exact .inl ⟨failure, rfl, hgrows⟩
  · exact .inl ⟨_, rfl, hgrows⟩
  · exact .inr hsaved

theorem outcome_ensureParent {world : World} {path : String}
    (h : ∀ parent, FilePath.parent? path = some parent → world.disk.pathExists parent = true) :
    outcome (ensureParent path) world = (.ok (), world) := by
  unfold ensureParent
  split
  · rfl
  · next parent hparent =>
    rw [outcome_bind, outcome_pathExists]
    simp only [h parent hparent, if_true]
    rfl

/-- **Saving again** succeeds, makes no directory, and puts the new text in the place of the old
one. -/
theorem outcome_saveDocument_again {disk : Disk} {path : String} {content : ByteArray}
    {world : World} (h : Saved disk path content world.disk) (document : Document) :
    let target := FilePath.absolute world.disk.workingPath path
    ∃ after, outcome (saveDocument document path) world = (.ok (), after) ∧
      after.events =
        world.events ++ [.saving target, .wrote document.render.utf8ByteSize target] ∧
      ∀ location, after.disk.get? location =
        if world.disk.destination path = location then some (.file document.render.toUTF8)
        else world.disk.get? location := by
  intro target
  set place := world.disk.destination path
  obtain ⟨hanchored, around, made, hgrown, hmake, hwrite⟩ := h
  have hagain : world.disk.Anchored path := (Disk.keeps_writeBytes hwrite).anchored
    ((Disk.keeps_writeBytes hmake).anchored (hgrown.keeps.anchored hanchored))
  have hworking : disk.workingPath = world.disk.workingPath := by
    unfold Disk.workingPath
    rw [(Disk.keeps_writeBytes hwrite).workingDirectory,
      (Disk.keeps_writeBytes hmake).workingDirectory, hgrown.workingDirectory]
  rw [hworking] at hwrite
  have hplace : world.disk.destination target = place := world.disk.destination_absolute path
  have hempty : world.disk.writeBytes target .empty =
      .ok (world.disk.put place (.file .empty)) := by
    rw [Disk.writeBytes_again hwrite, ← (Disk.keeps_writeBytes hwrite).destination, hplace]
  have hfill := Disk.writeBytes_again hempty document.render.toUTF8
  rw [hplace] at hfill
  have hensure : outcome (ensureParent target) (world.reported [.saving target]) =
      (.ok (), world.reported [.saving target]) := by
    refine outcome_ensureParent fun parent hparent => ?_
    obtain ⟨-, ⟨trail, hreach⟩, -, -⟩ :=
      Disk.fileLocation_eq_ok (Disk.writeBytes_eq_ok hempty).1
    unfold Disk.pathExists
    rw [World.disk_reported,
      Disk.lookup_parent (world.disk.isAbsolute_absolute path) hreach hparent]
  refine ⟨{ world.reported [.saving target, .wrote document.render.utf8ByteSize target] with
    disk := (world.disk.put place (.file .empty)).put place (.file document.render.toUTF8) },
    ?_, rfl, ?_⟩
  · unfold saveDocument
    rw [outcome_bind, outcome_resolvePath hagain]
    simp only
    rw [outcome_bind, outcome_log]
    simp only
    rw [outcome_bind, hensure]
    simp only
    rw [outcome_bind, outcome_makeFile, World.disk_reported, hempty]
    simp only
    rw [outcome_bind, outcome_writeText, hfill]
    simp only [World.update]
    rw [outcome_bind, outcome_orFail]
    simp only [Except.mapError]
    rw [outcome_log]
    simp [World.reported, target]
  · intro location
    simp only [Disk.get?_put]
    split_ifs <;> rfl

/-! ### A whole extraction -/

/-- **An extraction, step by step**: the tree is read and analysed, then the stored document is
loaded, and only then something is saved. -/
theorem outcome_extract_eq (tree name path : String) (world : World) :
    outcome (extract tree name (some path)) world =
      match world.disk.readText tree with
      | .error fault => (.error (.readTree tree fault), world.reported [.reading tree])
      | .ok content =>
        match analyzeText content with
        | .error fault => (.error (.abi fault), world.reported [.reading tree])
        | .ok (analysis, events) =>
          match world.disk.stored path with
          | .error failure => (.error failure, world.reported (.reading tree :: events))
          | .ok stored =>
            let document := Document.ofAnalysis name analysis
            outcome (do saveDocument (document.update stored) path; return document.update stored)
              (world.reported (.reading tree :: events ++ document.updateEvents stored)) := by
  unfold extract
  rw [outcome_bind, outcome_log]
  simp only
  rw [outcome_bind, outcome_readText, World.disk_reported]
  simp only
  rw [outcome_bind, outcome_orFail]
  cases world.disk.readText tree with
  | error fault => rfl
  | ok content =>
    simp only [Except.mapError]
    rw [outcome_bind, outcome_analyze]
    rcases analyzeText content with fault | ⟨analysis, events⟩
    · rfl
    · simp only
      rw [outcome_bind, outcome_mergeStored]
      simp only [World.disk_reported, World.reported_reported, List.singleton_append]
      cases world.disk.stored path <;> rfl

/-- **An extraction** that fails adds directories at most. One that succeeds returns the document of
the analysis of its tree, in the place of the stored one, and has saved it. -/
theorem outcome_extract {tree name path : String} {world after : World}
    {result : Except Failure Document}
    (h : outcome (extract tree name (some path)) world = (result, after)) :
    (∃ failure, result = .error failure ∧ world.disk.Grown after.disk) ∨
      ∃ content analysis events stored document, world.disk.readText tree = .ok content ∧
        analyzeText content = .ok (analysis, events) ∧ world.disk.stored path = .ok stored ∧
        document = (Document.ofAnalysis name analysis).update stored ∧ result = .ok document ∧
        Saved world.disk path document.render.toUTF8 after.disk := by
  rw [outcome_extract_eq] at h
  split at h
  · cases h
    exact Or.inl ⟨_, rfl, .refl _⟩
  next content hread =>
  split at h
  · cases h
    exact Or.inl ⟨_, rfl, .refl _⟩
  next analysis events hanalysis =>
  split at h
  · cases h
    exact Or.inl ⟨_, rfl, .refl _⟩
  next stored hstored =>
  rcases outcome_bind_eq h with ⟨failure, hsave, rfl⟩ | ⟨_, last, hsave, hlast⟩
  · rcases outcome_saveDocument hsave with ⟨_, -, hgrown⟩ | ⟨hcontra, -⟩
    · exact Or.inl ⟨failure, rfl, hgrown⟩
    · cases hcontra
  · rw [outcome_pure, Prod.mk.injEq] at hlast
    obtain ⟨rfl, rfl⟩ := hlast
    rcases outcome_saveDocument hsave with ⟨_, hcontra, -⟩ | ⟨-, hsaved⟩
    · cases hcontra
    · exact Or.inr
        ⟨content, analysis, events, stored, _, hread, hanalysis, hstored, rfl, rfl, hsaved⟩

end AbiRecovery
