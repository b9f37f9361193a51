import AbiRecovery.Proofs.Abi.Merge
import AbiRecovery.Proofs.Abi.RoundTrip
import AbiRecovery.Proofs.Extraction.Effects

/-!
# A stored document over many runs

Runs of the extraction follow each other, all with one output path. What the runs read may change
between them in any way, and so may the rest of the disk; only the stored file is left alone
(`Untouched`).

What is stored after a run is known from the results alone: the document of the last run that
succeeded (`storedAfter`, `stores_after`). So every property of the stored document is one that an
update keeps (`Sound.update`, `Succeeds.update`), carried along the runs by induction.
-/

namespace AbiRecovery

open Document

/-! ### One update -/

namespace Document

/-- The opcodes of a document increase strictly, and its fingerprint is that of its instructions. -/
structure Sound (document : Document) : Prop where
  ordered : Ordered document.instructions
  fingerprint : document.metadata.fingerprint = fingerprintOf document.instructions

/-- A document that follows another one of the same program: nothing is lost. -/
structure Succeeds (earlier later : Document) : Prop where
  name : later.name = earlier.name
  version : later.version = earlier.version
  preserved : Preserved earlier.instructions later.instructions

theorem Succeeds.refl (document : Document) : Succeeds document document :=
  ⟨rfl, rfl, .refl _⟩

theorem Succeeds.trans {first second third : Document} (h : Succeeds first second)
    (h' : Succeeds second third) : Succeeds first third :=
  ⟨h'.name.trans h.name, h'.version.trans h.version, h.preserved.trans h'.preserved⟩

theorem succeeds_merge (stored incoming : Document) : Succeeds stored (stored.merge incoming) := by
  obtain ⟨hname, hversion, -⟩ := fields_merge stored incoming
  exact ⟨hname, hversion, preserved_merge stored incoming⟩

theorem name_ofAnalysis (name : String) (analysis : Analysis) :
    (ofAnalysis name analysis).name = name := by
  simp only [ofAnalysis, refresh, foldl_add, empty]

theorem Sound.update {stored : Option Document} (h : ∀ document ∈ stored, document.Sound)
    (name : String) (analysis : Analysis) : ((ofAnalysis name analysis).update stored).Sound := by
  cases stored with
  | none => exact ⟨ordered_ofAnalysis name analysis, rfl⟩
  | some document => exact ⟨ordered_merge (h document rfl).ordered _, rfl⟩

end Document

/-! ### One run -/

/-- A run of the extraction: its tree, the name it was given, and the world it starts in. -/
structure Attempt where
  tree : String
  name : String
  world : World

namespace Attempt

/-- The result of a run. -/
def result (path : String) (attempt : Attempt) : Except Failure Document :=
  (outcome (extract attempt.tree attempt.name (some path)) attempt.world).1

/-- Whether a run succeeds. -/
def succeeded (path : String) (attempt : Attempt) : Bool :=
  (attempt.result path).isOk

/-- The world after a run. -/
def after (path : String) (attempt : Attempt) : World :=
  (outcome (extract attempt.tree attempt.name (some path)) attempt.world).2

theorem outcome_eq (path : String) (attempt : Attempt) :
    outcome (extract attempt.tree attempt.name (some path)) attempt.world =
      (attempt.result path, attempt.after path) := rfl

/-- What is stored after a run. -/
def store (path : String) (stored : Option Document) (attempt : Attempt) : Option Document :=
  match attempt.result path with
  | .ok document => some document
  | .error _ => stored

end Attempt

/-- A disk **stores** a document at a path, or has no file there. -/
def Stores (disk : Disk) (path : String) : Option Document → Prop
  | none => ∀ content, disk.get? (disk.destination path) ≠ some (.file content)
  | some document => disk.lookup path = .ok (.file document.render.toUTF8)

theorem fromUTF8?_toUTF8 (text : String) : String.fromUTF8? text.toUTF8 = some text := by
  have hvalid : text.toUTF8.IsValidUTF8 := text.isValidUTF8
  unfold String.fromUTF8?
  rw [dif_pos hvalid]
  rfl

theorem Stores.stored_eq {disk : Disk} {path : String} {document : Document}
    (h : Stores disk path (some document)) : disk.stored path = .ok (some document) := by
  have hlookup : disk.lookup path = .ok (.file document.render.toUTF8) := h
  unfold Disk.stored Disk.pathExists Disk.readText
  rw [hlookup]
  simp only [if_true]
  rw [fromUTF8?_toUTF8]
  simp only [storedDocument, ofText_render]
  rfl

theorem Stores.eq_of_stored {disk : Disk} {path : String} {stored loaded : Option Document}
    (h : Stores disk path stored) (hl : disk.stored path = .ok loaded) : loaded = stored := by
  cases stored with
  | some document =>
    rw [h.stored_eq] at hl
    cases hl
    rfl
  | none =>
    unfold Disk.stored Disk.pathExists Disk.readText at hl
    cases hlookup : disk.lookup path with
    | error fault =>
      rw [hlookup] at hl
      cases hl
      rfl
    | ok entry =>
      cases entry with
      | file content => exact absurd (Disk.get?_destination hlookup) (h content)
      | directory =>
        rw [hlookup] at hl
        cases hl

theorem Stores.grown {disk later : Disk} {path : String} {stored : Option Document}
    (h : Stores disk path stored) (hg : disk.Grown later) : Stores later path stored := by
  cases stored with
  | some document => exact hg.lookup h
  | none =>
    intro content hfile
    rw [hg.keeps.destination] at hfile
    exact h content (hg.file hfile)

namespace Attempt

section Step
variable {path : String} {stored : Option Document} {attempt : Attempt}
  (h : Stores attempt.world.disk path stored)
include h

/-- **One run**: a run that fails leaves what is stored, one that succeeds stores its result, which
is an update of what was stored. -/
theorem stores_after : Stores (attempt.after path).disk path (attempt.store path stored) ∧
    ∀ document, attempt.result path = .ok document →
      ∃ analysis, document = (ofAnalysis attempt.name analysis).update stored := by
  unfold store
  rcases outcome_extract (attempt.outcome_eq path) with
    ⟨failure, hfail, hgrown⟩ |
    ⟨content, analysis, events, loaded, document, -, -, hloaded, hdocument, hok, hsaved⟩
  · rw [hfail]
    refine ⟨h.grown hgrown, fun document hok => ?_⟩
    cases hok
  · rw [h.eq_of_stored hloaded] at hdocument
    rw [hok]
    refine ⟨hsaved.lookup, fun other hother => ?_⟩
    cases hother
    exact ⟨analysis, hdocument⟩

theorem sound_store (hsound : ∀ document ∈ stored, document.Sound) :
    ∀ document ∈ attempt.store path stored, document.Sound := by
  intro document hdocument
  unfold store at hdocument
  split at hdocument
  · next written hok =>
    obtain ⟨analysis, rfl⟩ := (stores_after h).2 written hok
    cases hdocument
    exact Sound.update hsound attempt.name analysis
  · exact hsound document hdocument

theorem succeeds_store {document : Document} (hd : stored = some document) :
    ∃ later, attempt.store path stored = some later ∧ document.Succeeds later := by
  unfold store
  split
  · next written hok =>
    obtain ⟨analysis, rfl⟩ := (stores_after h).2 written hok
    rw [hd]
    exact ⟨_, rfl, succeeds_merge document _⟩
  · exact ⟨document, hd, .refl document⟩

end Step

end Attempt

/-! ### Many runs -/

/-- Nobody touched the stored file: a file that a path led to is what it still leads to, and no file
came to the place that it names. -/
structure Untouched (path : String) (disk later : Disk) : Prop where
  kept : ∀ content, disk.lookup path = .ok (.file content) →
    later.lookup path = .ok (.file content)
  fresh : ∀ content, later.get? (later.destination path) = some (.file content) →
    disk.get? (disk.destination path) = some (.file content)

theorem Untouched.refl (path : String) (disk : Disk) : Untouched path disk disk :=
  ⟨fun _ h => h, fun _ h => h⟩

theorem Stores.untouched {disk later : Disk} {path : String} {stored : Option Document}
    (h : Stores disk path stored) (hu : Untouched path disk later) : Stores later path stored := by
  cases stored with
  | some document => exact hu.kept _ h
  | none =>
    intro content hfile
    exact h content (hu.fresh content hfile)

/-- Runs that follow each other from a disk on, where nobody else touches the stored file. -/
def History (path : String) : Disk → List Attempt → Prop
  | _, [] => True
  | disk, attempt :: attempts =>
    Untouched path disk attempt.world.disk ∧ History path (attempt.after path).disk attempts

/-- What is stored after some runs. -/
def storedAfter (path : String) (stored : Option Document) (attempts : List Attempt) :
    Option Document :=
  attempts.foldl (Attempt.store path) stored

theorem History.of_append {path : String} {disk : Disk} {earlier later : List Attempt}
    (h : History path disk (earlier ++ later)) : History path disk earlier := by
  induction earlier generalizing disk with
  | nil => trivial
  | cons attempt earlier ih => exact ⟨h.1, ih h.2⟩

section Run
variable {path : String} {disk : Disk} {stored : Option Document}
  (hstores : Stores disk path stored)
include hstores

/-- **Many runs** store what their results say. -/
theorem stores_storedAfter {earlier : List Attempt} {attempt : Attempt}
    (h : History path disk (earlier ++ [attempt])) :
    Stores (attempt.after path).disk path (storedAfter path stored (earlier ++ [attempt])) := by
  induction earlier generalizing disk stored with
  | nil => exact (Attempt.stores_after (hstores.untouched h.1)).1
  | cons first earlier ih =>
    exact ih (Attempt.stores_after (hstores.untouched h.1)).1 h.2

theorem sound_storedAfter {attempts : List Attempt} (h : History path disk attempts)
    (hsound : ∀ document ∈ stored, document.Sound) :
    ∀ document ∈ storedAfter path stored attempts, document.Sound := by
  induction attempts generalizing disk stored with
  | nil => exact hsound
  | cons attempt attempts ih =>
    have hbefore := hstores.untouched h.1
    exact ih (Attempt.stores_after hbefore).1 h.2 (Attempt.sound_store hbefore hsound)

theorem succeeds_storedAfter {attempts : List Attempt} (h : History path disk attempts)
    {document : Document} (hd : stored = some document) :
    ∃ later, storedAfter path stored attempts = some later ∧ document.Succeeds later := by
  induction attempts generalizing disk stored document with
  | nil => exact ⟨document, hd, .refl document⟩
  | cons attempt attempts ih =>
    have hbefore := hstores.untouched h.1
    obtain ⟨middle, hmiddle, hfirst⟩ := Attempt.succeeds_store hbefore hd
    obtain ⟨later, hlater, hrest⟩ := ih (Attempt.stores_after hbefore).1 h.2 hmiddle
    exact ⟨later, hlater, hfirst.trans hrest⟩

theorem pairwise_succeeds {attempts : List Attempt} (h : History path disk attempts) :
    attempts.Pairwise fun earlier later => ∀ document,
      (earlier.after path).disk.stored path = .ok (some document) →
        ∃ kept, (later.after path).disk.stored path = .ok (some kept) ∧ document.Succeeds kept := by
  induction attempts generalizing disk stored with
  | nil => exact .nil
  | cons attempt attempts ih =>
    have hafter := (Attempt.stores_after (hstores.untouched h.1)).1
    refine .cons (fun later hlater document hloaded => ?_) (ih hafter h.2)
    obtain ⟨between, rest, rfl⟩ := List.append_of_mem hlater
    have hsplit : between ++ later :: rest = (between ++ [later]) ++ rest := by simp
    have hhistory := (hsplit ▸ h.2).of_append
    obtain ⟨kept, hkept, hsucceeds⟩ :=
      succeeds_storedAfter hafter hhistory (hafter.eq_of_stored hloaded).symm
    have hlast := stores_storedAfter hafter hhistory
    rw [hkept] at hlast
    exact ⟨kept, hlast.stored_eq, hsucceeds⟩

end Run

/-- Where nothing was stored, nothing is stored until the first run that succeeds, and what is
stored then follows its result. -/
theorem storedAfter_vacant {path : String} {disk : Disk} (hvacant : Stores disk path none)
    {attempts : List Attempt} (h : History path disk attempts) :
    match attempts.find? (Attempt.succeeded path) with
    | none => storedAfter path none attempts = none
    | some first => ∃ written later, first.result path = .ok written ∧ written.name = first.name ∧
        storedAfter path none attempts = some later ∧ written.Succeeds later := by
  induction attempts generalizing disk with
  | nil => rfl
  | cons attempt attempts ih =>
    obtain ⟨hafter, hresult⟩ := Attempt.stores_after (hvacant.untouched h.1)
    cases hok : attempt.result path with
    | error failure =>
      have hstore : attempt.store path none = none := by simp only [Attempt.store, hok]
      have hfind : Attempt.succeeded path attempt = false := by
        simp only [Attempt.succeeded, hok]
        rfl
      rw [hstore] at hafter
      rw [List.find?_cons_of_neg (by simp [hfind]), storedAfter, List.foldl_cons, hstore]
      exact ih hafter h.2
    | ok written =>
      have hstore : attempt.store path none = some written := by simp only [Attempt.store, hok]
      have hfind : Attempt.succeeded path attempt = true := by
        simp only [Attempt.succeeded, hok]
        rfl
      obtain ⟨analysis, hwritten⟩ := hresult written hok
      rw [hstore] at hafter
      obtain ⟨later, hlater, hsucceeds⟩ := succeeds_storedAfter hafter h.2 rfl
      rw [List.find?_cons_of_pos hfind, storedAfter, List.foldl_cons, hstore]
      refine ⟨written, later, hok, ?_, hlater, hsucceeds⟩
      rw [hwritten]
      exact name_ofAnalysis attempt.name analysis

/-- **A stored document over many runs.** Let runs with one output path follow each other, where no
file is at first and nobody else touches the file. After each run the file is there exactly if one
of the runs so far succeeded. Then it is loaded, its opcodes increase strictly, its fingerprint is
that of its own instructions, and its name and version are those of the first run that succeeded.
And no later run loses an opcode that was stored after an earlier one, or the accounts of one. -/
theorem stored_document_over_runs {path : String} {start : Disk} {attempts : List Attempt}
    (hvacant : ∀ content, start.get? (start.destination path) ≠ some (.file content))
    (hhistory : History path start attempts) :
    (∀ earlier attempt later, attempts = earlier ++ attempt :: later →
      ((∃ content, (attempt.after path).disk.lookup path = .ok (.file content)) ↔
        ∃ run ∈ earlier ++ [attempt], run.succeeded path) ∧
      ∀ content, (attempt.after path).disk.lookup path = .ok (.file content) →
        ∃ document first written,
          outcome (loadDocument? path) (attempt.after path) =
            (.ok (some document), attempt.after path) ∧
          document.instructions.Pairwise (fun before next => before.code < next.code) ∧
          document.metadata.fingerprint = fingerprint
            (Instruction.listToJson document.instructions).compact.toUTF8.toList ∧
          (earlier ++ [attempt]).find? (Attempt.succeeded path) = some first ∧
          first.result path = .ok written ∧ written.name = first.name ∧
          document.name = written.name ∧ document.version = written.version) ∧
      attempts.Pairwise fun earlier later => ∀ document,
        (outcome (loadDocument? path) (earlier.after path)).1 = .ok (some document) →
          ∃ kept, (outcome (loadDocument? path) (later.after path)).1 = .ok (some kept) ∧
            Preserved document.instructions kept.instructions := by
  have hstores : Stores start path none := hvacant
  refine ⟨?_, ?_⟩
  · rintro earlier attempt later rfl
    have hsplit : earlier ++ attempt :: later = (earlier ++ [attempt]) ++ later := by simp
    have hruns := (hsplit ▸ hhistory).of_append
    have hlast := stores_storedAfter hstores hruns
    have hfirst := storedAfter_vacant hstores hruns
    cases hfind : (earlier ++ [attempt]).find? (Attempt.succeeded path) with
    | none =>
      rw [hfind] at hfirst
      simp only at hfirst
      rw [hfirst] at hlast
      have hnone : ∀ content, (attempt.after path).disk.lookup path ≠ .ok (.file content) :=
        fun content hfile => hlast content (Disk.get?_destination hfile)
      refine ⟨⟨fun ⟨content, hfile⟩ => absurd hfile (hnone content), ?_⟩,
        fun content hfile => absurd hfile (hnone content)⟩
      rintro ⟨run, hrun, hok⟩
      exact absurd hok (List.find?_eq_none.mp hfind run hrun)
    | some first =>
      rw [hfind] at hfirst
      obtain ⟨written, document, hresult, hname, hdocument, hsucceeds⟩ := hfirst
      have hsound := sound_storedAfter hstores hruns (by simp) document hdocument
      rw [hdocument] at hlast
      refine ⟨⟨fun _ => ⟨first, List.mem_of_find?_eq_some hfind, List.find?_some hfind⟩,
        fun _ => ⟨_, hlast⟩⟩, fun content _ => ?_⟩
      refine ⟨document, first, written, ?_, hsound.ordered, hsound.fingerprint, rfl, hresult, hname,
        hsucceeds.name, hsucceeds.version⟩
      rw [outcome_loadDocument?, hlast.stored_eq]
  · refine (pairwise_succeeds hstores hhistory).imp fun {earlier later} hpair document hloaded => ?_
    rw [outcome_loadDocument?] at hloaded
    obtain ⟨kept, hkept, hsucceeds⟩ := hpair document hloaded
    exact ⟨kept, by rw [outcome_loadDocument?, hkept], hsucceeds.preserved⟩

/-- A disk with the tree of an enum of one variant. -/
def treeDisk : Disk :=
  (Disk.blank ["home"]).put "/home/tree" (.file
    ("\x7b\"items\":[\x7b\"_type\":\"ItemEnum\",\"ident\":\x7b\"to_string\":\"Op\"\x7d," ++
      "\"variants\":[\x7b\"_type\":\"Variant\",\"ident\":\x7b\"to_string\":\"Pay\"\x7d\x7d]" ++
      "\x7d]\x7d").toUTF8)

/-- Runs in a row: of a tree that is missing, and twice of one that is there. -/
def threeAttempts : Attempt × Attempt × Attempt :=
  let rejected : Attempt := ⟨"missing", "none", { disk := treeDisk }⟩
  let first : Attempt := ⟨"tree", "shop", rejected.after "out/abi"⟩
  (rejected, first, ⟨"tree", "market", first.after "out/abi"⟩)

theorem stored_document_over_three_runs :
    let (rejected, first, second) := threeAttempts
    (∀ content, treeDisk.get? (treeDisk.destination "out/abi") ≠ some (.file content)) ∧
      History "out/abi" treeDisk [rejected, first, second] ∧
      ∃ document, outcome (loadDocument? "out/abi") (second.after "out/abi") =
          (.ok (some document), second.after "out/abi") ∧ document.name = "shop" := by
  have hvacant : ∀ content,
      treeDisk.get? (treeDisk.destination "out/abi") ≠ some (.file content) := by
    have hnone : (treeDisk.get? (treeDisk.destination "out/abi")).isNone = true := by decide +kernel
    intro content
    rw [Option.isNone_iff_eq_none.mp hnone]
    simp
  have hhistory : History "out/abi" treeDisk
      [threeAttempts.1, threeAttempts.2.1, threeAttempts.2.2] :=
    ⟨.refl _ _, .refl _ _, .refl _ _, trivial⟩
  have hrejected : threeAttempts.1.succeeded "out/abi" = false := by decide +kernel
  have hfirst : threeAttempts.2.1.succeeded "out/abi" = true := by decide +kernel
  obtain ⟨hpresent, hstored⟩ := (stored_document_over_runs hvacant hhistory).1
    [threeAttempts.1, threeAttempts.2.1] threeAttempts.2.2 [] rfl
  obtain ⟨content, hfile⟩ := hpresent.mpr ⟨threeAttempts.2.1, by simp, hfirst⟩
  obtain ⟨document, first, written, hload, -, -, hfind, -, hname, hsame, -⟩ := hstored content hfile
  refine ⟨hvacant, hhistory, document, hload, ?_⟩
  rw [List.cons_append, List.find?_cons_of_neg (by simp [hrejected]), List.cons_append,
    List.find?_cons_of_pos hfirst] at hfind
  cases hfind
  rw [hsame, hname]
  rfl

end AbiRecovery
