import AbiRecovery.Store.Disk
import Mathlib.Data.List.Basic
import Mathlib.Data.List.Induction

/-!
# Where a path leads

A walk along a path passes directories only, so it does not see what happens to files: it ends
where it ended before as long as every directory stays (`Disk.Keeps`, `Keeps.follow`). Both actions
that change a disk keep its directories: one adds a directory where nothing was (`Disk.Grown`), the
other writes a file where no directory was (`Disk.keeps_writeBytes`).

Where a walk ends is known before it is made, from the names of the path alone
(`Disk.destination`). A path leads where the absolute path leads that is made of it
(`Reaches.of_absolute`), so a file that was written at the absolute path is what the path then leads
to (`lookup_of_written`).
-/

namespace AbiRecovery

/-! ### The parts of a path -/

namespace FilePath

theorem splitChars_ne_nil (text : List Char) : splitChars text ≠ [] := by
  rw [splitChars.eq_def]
  split
  · simp
  · simp
  · split <;> simp

theorem splitChars_append (first second : List Char) :
    splitChars (first ++ '/' :: second) = splitChars first ++ splitChars second := by
  induction first with
  | nil => rfl
  | cons c first ih =>
    by_cases hc : c = '/'
    · subst hc
      rw [List.cons_append, splitChars, splitChars, ih]
      rfl
    · obtain ⟨part, parts, hparts⟩ := List.exists_cons_of_ne_nil (splitChars_ne_nil first)
      rw [List.cons_append, splitChars, splitChars, ih, hparts]
      · rfl
      · exact hc
      · exact hc

theorem parts_append (first second : String) :
    parts (first ++ "/" ++ second) = parts first ++ parts second := by
  have h : (first ++ "/" ++ second).toList = first.toList ++ '/' :: second.toList := by simp
  unfold parts
  rw [h, splitChars_append, List.map_append]

theorem parts_of_no_slash {text : String} (h : '/' ∉ text.toList) : parts text = [text] := by
  have hsplit : ∀ chars : List Char, '/' ∉ chars → splitChars chars = [chars] := by
    intro chars
    induction chars with
    | nil => intro _; rfl
    | cons c chars ih =>
      intro hc
      rw [List.mem_cons, not_or] at hc
      rw [splitChars, ih hc.2]
      intro hslash
      exact hc.1 hslash.symm
  unfold parts
  rw [hsplit _ h, List.map_singleton, String.ofList_toList]

theorem no_slash_of_isName {name : String} (h : isName name = true) : '/' ∉ name.toList := by
  simp only [isName, Bool.and_eq_true, decide_eq_true_eq] at h
  exact h.2

end FilePath

/-! ### Walking blindly -/

namespace Disk

/-- Where a part of a path leads if nothing is in the way. -/
def step (trail : Trail) (part : String) : Trail :=
  if FilePath.isBlank part then trail
  else if part = ".." then trail.tail
  else trail.enter part

/-- Where a walk ends if nothing is in its way. -/
def walk (trail : Trail) (parts : List String) : Trail :=
  parts.foldl step trail

/-- Where a path starts. -/
def origin (disk : Disk) (path : String) : Trail :=
  if FilePath.isAbsolute path then [] else disk.workingDirectory

/-- **The place that a path names**, whether or not there is a way to it. -/
def destination (disk : Disk) (path : String) : Location :=
  (walk (disk.origin path) (FilePath.parts path)).location

theorem walk_append (trail : Trail) (first second : List String) :
    walk trail (first ++ second) = walk (walk trail first) second :=
  List.foldl_append

theorem step_name (trail : Trail) {name : String} (h : FilePath.isName name = true) :
    step trail name = trail.enter name := by
  simp only [FilePath.isName, Bool.and_eq_true, Bool.not_eq_true', decide_eq_true_eq] at h
  rw [step, if_neg (by simp [h.1.1]), if_neg h.1.2]

theorem walk_names (trail : Trail) {names : List String} (h : names.all FilePath.isName = true) :
    walk trail names = names.foldl Trail.enter trail := by
  induction names generalizing trail with
  | nil => rfl
  | cons name names ih =>
    rw [List.all_cons, Bool.and_eq_true] at h
    rw [walk, List.foldl_cons, List.foldl_cons, step_name trail h.1]
    exact ih _ h.2

/-- **One part of a walk**: it starts from a directory, its name is not too long, and the rest is
followed from where it leads. -/
theorem follow_cons_eq_ok_iff {disk : Disk} {part : String} {parts : List String}
    {trail last : Trail} :
    disk.follow trail (part :: parts) = .ok last ↔
      disk.get? trail.location = some .directory ∧
        (FilePath.isBlank part = true ∨ part = ".." ∨ part.utf8ByteSize ≤ maxNameBytes) ∧
        disk.follow (step trail part) parts = .ok last := by
  rw [follow, step]
  rcases disk.get? trail.location with _ | _ | content
  · simp
  · by_cases hblank : FilePath.isBlank part = true
    · simp [hblank]
    · by_cases hup : part = ".."
      · simp [hup, show FilePath.isBlank ".." = false by decide]
      · by_cases hlong : maxNameBytes < part.utf8ByteSize
        · simp [hblank, hup, hlong, Nat.not_le_of_lt hlong]
        · simp [hblank, hup, hlong, Nat.le_of_not_lt hlong]
  · simp

theorem follow_eq_ok {disk : Disk} {parts : List String} {trail last : Trail}
    (h : disk.follow trail parts = .ok last) : last = walk trail parts := by
  induction parts generalizing trail with
  | nil =>
    cases h
    rfl
  | cons part parts ih =>
    obtain ⟨-, -, hrest⟩ := follow_cons_eq_ok_iff.mp h
    exact ih hrest

theorem follow_append {disk : Disk} {first second : List String} {trail last : Trail}
    (h : disk.follow trail (first ++ second) = .ok last) :
    disk.follow (walk trail first) second = .ok last := by
  induction first generalizing trail with
  | nil => exact h
  | cons part parts ih =>
    obtain ⟨-, -, hrest⟩ := follow_cons_eq_ok_iff.mp h
    exact ih hrest

theorem start_eq_ok {disk : Disk} {path : String} {trail : Trail}
    (h : disk.start path = .ok trail) : trail = disk.origin path := by
  unfold start at h
  split_ifs at h
  · cases h
    rw [origin, if_pos ‹_›]
  · cases h
    rw [origin, if_neg ‹_›]

theorem exists_start_eq_ok_iff {disk : Disk} {path : String} :
    (∃ trail, disk.start path = .ok trail) ↔
      '\x00' ∉ path.toList ∧ path ≠ "" ∧ path.utf8ByteSize ≤ maxPathBytes := by
  unfold start
  by_cases hzero : '\x00' ∈ path.toList
  · simp [hzero]
  · by_cases hempty : path = ""
    · simp [hempty]
    · by_cases hlong : maxPathBytes < path.utf8ByteSize
      · simp [hzero, hempty, hlong]
      · simp [hzero, hempty, hlong, Nat.le_of_not_lt hlong]

/-- A path **reaches** a trail: it is a path that can be followed, and the walk ends there. -/
def Reaches (disk : Disk) (path : String) (trail : Trail) : Prop :=
  (∃ first, disk.start path = .ok first) ∧
    disk.follow (disk.origin path) (FilePath.parts path) = .ok trail

theorem followFrom_parts {disk : Disk} {path : String} {trail : Trail} :
    disk.followFrom path (FilePath.parts path) = .ok trail ↔ disk.Reaches path trail := by
  unfold followFrom Reaches
  cases h : disk.start path with
  | error fault => simp
  | ok first =>
    rw [start_eq_ok h]
    simp

theorem Reaches.location {disk : Disk} {path : String} {trail : Trail}
    (h : disk.Reaches path trail) : trail.location = disk.destination path := by
  rw [follow_eq_ok h.2, destination]

theorem lookup_eq_ok_iff {disk : Disk} {path : String} {entry : Entry} :
    disk.lookup path = .ok entry ↔
      ∃ trail, disk.Reaches path trail ∧ disk.get? trail.location = some entry := by
  unfold lookup
  cases h : disk.followFrom path (FilePath.parts path) with
  | error fault =>
    simp only [reduceCtorEq, false_iff, not_exists, not_and]
    intro trail hreach
    rw [followFrom_parts.mpr hreach] at h
    cases h
  | ok trail =>
    have hreach := followFrom_parts.mp h
    simp only
    constructor
    · intro hget
      refine ⟨trail, hreach, ?_⟩
      split at hget
      · next found hfound =>
        cases hget
        exact hfound
      · cases hget
    · rintro ⟨other, hother, hget⟩
      rw [follow_eq_ok hreach.2, ← follow_eq_ok hother.2, hget]

theorem get?_destination {disk : Disk} {path : String} {entry : Entry}
    (h : disk.lookup path = .ok entry) : disk.get? (disk.destination path) = some entry := by
  obtain ⟨trail, hreach, hget⟩ := lookup_eq_ok_iff.mp h
  rw [← hreach.location, hget]

/-! ### Directories that stay -/

/-- Every directory of a disk is still one. -/
structure Keeps (disk later : Disk) : Prop where
  workingDirectory : later.workingDirectory = disk.workingDirectory
  directory : ∀ location, disk.get? location = some .directory →
    later.get? location = some .directory

/-- A disk with some more directories. -/
structure Grown (disk later : Disk) : Prop where
  workingDirectory : later.workingDirectory = disk.workingDirectory
  entry : ∀ location, later.get? location = disk.get? location ∨
    (disk.get? location = none ∧ later.get? location = some .directory)

/-- A path **has an absolute form**: it is absolute, or the working directory is there. -/
def Anchored (disk : Disk) (path : String) : Prop :=
  FilePath.isAbsolute path = true ∨ disk.get? disk.workingDirectory.location = some .directory

section Keeps
variable {disk later : Disk} (h : Keeps disk later)
include h

theorem Keeps.anchored {path : String} (ha : disk.Anchored path) : later.Anchored path := by
  rcases ha with hpath | hdirectory
  · exact Or.inl hpath
  · right
    rw [h.workingDirectory]
    exact h.directory _ hdirectory

theorem Keeps.follow {parts : List String} {trail last : Trail}
    (hf : disk.follow trail parts = .ok last) : later.follow trail parts = .ok last := by
  induction parts generalizing trail with
  | nil => exact hf
  | cons part parts ih =>
    obtain ⟨hdir, hpart, hrest⟩ := follow_cons_eq_ok_iff.mp hf
    exact follow_cons_eq_ok_iff.mpr ⟨h.directory _ hdir, hpart, ih hrest⟩

theorem Keeps.origin (path : String) : later.origin path = disk.origin path := by
  unfold Disk.origin
  rw [h.workingDirectory]

theorem Keeps.destination (path : String) : later.destination path = disk.destination path := by
  unfold Disk.destination
  rw [h.origin]

theorem Keeps.reaches {path : String} {trail : Trail} (hr : disk.Reaches path trail) :
    later.Reaches path trail := by
  obtain ⟨⟨first, hstart⟩, hfollow⟩ := hr
  refine ⟨⟨first, ?_⟩, ?_⟩
  · rw [← hstart]
    unfold start
    rw [h.workingDirectory]
  · rw [h.origin]
    exact h.follow hfollow

end Keeps

theorem Grown.refl (disk : Disk) : Grown disk disk := ⟨rfl, fun _ => Or.inl rfl⟩

theorem Grown.trans {first second third : Disk} (h : Grown first second) (h' : Grown second third) :
    Grown first third := by
  refine ⟨h'.workingDirectory.trans h.workingDirectory, fun location => ?_⟩
  rcases h'.entry location with he | ⟨hn, hd⟩
  · rw [he]
    exact h.entry location
  · rcases h.entry location with he' | ⟨hn', hd'⟩
    · exact Or.inr ⟨he' ▸ hn, hd⟩
    · rw [hd'] at hn
      cases hn

section Grown
variable {disk later : Disk} (h : Grown disk later)
include h

theorem Grown.keeps : Keeps disk later := by
  refine ⟨h.workingDirectory, fun location hd => ?_⟩
  rcases h.entry location with he | ⟨hn, -⟩
  · rw [he, hd]
  · rw [hn] at hd
    cases hd

theorem Grown.lookup {path : String} {entry : Entry} (hl : disk.lookup path = .ok entry) :
    later.lookup path = .ok entry := by
  obtain ⟨trail, hreach, hget⟩ := lookup_eq_ok_iff.mp hl
  refine lookup_eq_ok_iff.mpr ⟨trail, h.keeps.reaches hreach, ?_⟩
  rcases h.entry trail.location with he | ⟨hn, -⟩
  · rw [he, hget]
  · rw [hn] at hget
    cases hget

theorem Grown.file {location : Location} {content : ByteArray}
    (hf : later.get? location = some (.file content)) :
    disk.get? location = some (.file content) := by
  rcases h.entry location with he | ⟨-, hd⟩
  · rw [← he, hf]
  · rw [hd] at hf
    cases hf

end Grown

/-- **Making a directory** adds a directory where nothing was. -/
theorem grown_createDirectory {disk later : Disk} {path : String}
    (h : disk.createDirectory path = .ok later) : Grown disk later := by
  unfold createDirectory at h
  split at h
  · cases h
  · next location hplace =>
    split_ifs at h with hfree
    cases h
    refine ⟨rfl, fun other => ?_⟩
    rw [get?_put]
    split_ifs with heq
    · subst heq
      exact Or.inr ⟨by simpa using hfree, rfl⟩
    · exact Or.inl rfl

/-! ### Writing a file -/

theorem namedParts_eq_parts {path : String} (h : asksForDirectory path = false) :
    namedParts path = FilePath.parts path := by
  unfold asksForDirectory at h
  have hle : (FilePath.parts path).length ≤ (namedParts path).length := by simpa using h
  unfold namedParts at hle ⊢
  have hsuffix :
      (FilePath.parts path).reverse.dropWhile (· = "") <:+ (FilePath.parts path).reverse :=
    List.dropWhile_suffix _
  have heq := hsuffix.eq_of_length (by
    have := hsuffix.length_le
    simp only [List.length_reverse] at hle this ⊢
    omega)
  rw [heq, List.reverse_reverse]

theorem asksForDirectory_slash (text : String) : asksForDirectory (text ++ "/" ++ "") = true := by
  have hparts : FilePath.parts (text ++ "/" ++ "") = FilePath.parts text ++ [""] := by
    rw [FilePath.parts_append]
    rfl
  unfold asksForDirectory namedParts
  rw [hparts, List.reverse_append, List.reverse_singleton, List.singleton_append,
    List.dropWhile_cons_of_pos (by simp), decide_eq_true_eq, List.length_reverse]
  have hsuffix :
      (FilePath.parts text).reverse.dropWhile (· = "") <:+ (FilePath.parts text).reverse :=
    List.dropWhile_suffix _
  have hle := hsuffix.length_le
  rw [List.length_append, List.length_singleton]
  rw [List.length_reverse] at hle
  omega

/-- A file can be written where a path leads that does not ask for a directory, unless a directory
is there. -/
theorem fileLocation_eq_ok {disk : Disk} {path : String} {location : Location}
    (h : disk.fileLocation path = .ok location) :
    asksForDirectory path = false ∧ (∃ trail, disk.Reaches path trail) ∧
      location = disk.destination path ∧ disk.get? location ≠ some .directory := by
  unfold fileLocation at h
  split_ifs at h with hasks
  · split at h <;> cases h
  · have hasks' : asksForDirectory path = false := by simpa using hasks
    split at h
    · cases h
    · next found hplace =>
      unfold place at hplace
      rw [namedParts_eq_parts hasks'] at hplace
      split at hplace
      · cases hplace
      · next trail hfollow =>
        split_ifs at hplace
        cases hplace
        have hreach := followFrom_parts.mp hfollow
        split at h
        · cases h
        · next hdir =>
          cases h
          exact ⟨hasks', ⟨trail, hreach⟩, hreach.location, hdir⟩

theorem Keeps.fileLocation {disk later : Disk} (hk : Keeps disk later) {path : String}
    {location : Location} (h : disk.fileLocation path = .ok location)
    (hdir : later.get? location ≠ some .directory) : later.fileLocation path = .ok location := by
  obtain ⟨hasks, ⟨trail, hreach⟩, -, -⟩ := fileLocation_eq_ok h
  have hfollow := followFrom_parts.mpr hreach
  have hfollow' := followFrom_parts.mpr (hk.reaches hreach)
  unfold Disk.fileLocation place at h ⊢
  rw [namedParts_eq_parts hasks] at h ⊢
  rw [hfollow] at h
  rw [hfollow']
  simp only [hasks, Bool.false_eq_true, if_false] at h ⊢
  split_ifs at h ⊢
  simp only at h ⊢
  split at h
  · cases h
  · cases h
    split
    · next hd => exact absurd hd hdir
    · rfl

/-- **Writing a file** changes what is at the destination of its path and nothing else. -/
theorem writeBytes_eq_ok {disk later : Disk} {path : String} {content : ByteArray}
    (h : disk.writeBytes path content = .ok later) :
    disk.fileLocation path = .ok (disk.destination path) ∧
      later = disk.put (disk.destination path) (.file content) := by
  unfold writeBytes at h
  cases hl : disk.fileLocation path with
  | error fault =>
    rw [hl] at h
    cases h
  | ok location =>
    rw [hl] at h
    cases h
    obtain ⟨-, -, rfl, -⟩ := fileLocation_eq_ok hl
    exact ⟨rfl, rfl⟩

theorem keeps_put_file {disk : Disk} {location : Location} (content : ByteArray)
    (h : disk.get? location ≠ some .directory) :
    Keeps disk (disk.put location (.file content)) := by
  refine ⟨rfl, fun other hother => ?_⟩
  rw [get?_put, if_neg, hother]
  rintro rfl
  exact h hother

theorem keeps_writeBytes {disk later : Disk} {path : String} {content : ByteArray}
    (h : disk.writeBytes path content = .ok later) : Keeps disk later := by
  obtain ⟨hl, rfl⟩ := writeBytes_eq_ok h
  obtain ⟨-, -, -, hdir⟩ := fileLocation_eq_ok hl
  exact keeps_put_file content hdir

theorem lookup_writeBytes_of_ne {disk later : Disk} {path other : String} {content : ByteArray}
    {entry : Entry} (h : disk.writeBytes path content = .ok later)
    (hplace : disk.destination other ≠ disk.destination path)
    (hlookup : disk.lookup other = .ok entry) : later.lookup other = .ok entry := by
  have hkeeps := keeps_writeBytes h
  obtain ⟨trail, hreach, hget⟩ := lookup_eq_ok_iff.mp hlookup
  refine lookup_eq_ok_iff.mpr ⟨trail, hkeeps.reaches hreach, ?_⟩
  rw [(writeBytes_eq_ok h).2, get?_put, hreach.location, if_neg hplace.symm, ← hreach.location,
    hget]

/-- A file that could be written can be written again. -/
theorem writeBytes_again {disk later : Disk} {path : String} {content : ByteArray}
    (h : disk.writeBytes path content = .ok later) (other : ByteArray) :
    later.writeBytes path other = .ok (later.put (disk.destination path) (.file other)) := by
  have hkeeps := keeps_writeBytes h
  obtain ⟨hl, rfl⟩ := writeBytes_eq_ok h
  have hagain := hkeeps.fileLocation hl (by rw [get?_put, if_pos rfl]; simp)
  unfold writeBytes
  rw [hagain]
  rfl

/-! ### The absolute path -/

theorem location_ofNames_concat (names : List String) (name : String) :
    (Trail.ofNames (names ++ [name])).location =
      (Trail.ofNames names).location ++ "/" ++ name := by
  unfold Trail.ofNames
  rw [List.foldl_append]
  rfl

theorem parts_location {names : List String} (h : names.all FilePath.isName = true) :
    FilePath.parts (Trail.ofNames names).location = "" :: names := by
  induction names using List.reverseRecOn with
  | nil => rfl
  | append_singleton names name ih =>
    rw [List.all_append, Bool.and_eq_true, List.all_cons, List.all_nil, Bool.and_true] at h
    rw [location_ofNames_concat, FilePath.parts_append, ih h.1,
      FilePath.parts_of_no_slash (FilePath.no_slash_of_isName h.2)]
    rfl

theorem absolute_eq (disk : Disk) {path : String} (h : FilePath.isAbsolute path = false) :
    FilePath.absolute disk.workingPath path = disk.workingDirectory.location ++ "/" ++ path := by
  obtain ⟨names, hnames, htrail⟩ := disk.named
  unfold FilePath.absolute workingPath
  rw [htrail, h]
  simp only [Bool.false_eq_true, if_false]
  rcases names.eq_nil_or_concat' with rfl | ⟨outer, name, rfl⟩
  · simp [Trail.ofNames, Trail.location]
  · rw [List.all_append, Bool.and_eq_true, List.all_cons, List.all_nil, Bool.and_true] at hnames
    have hslash := FilePath.no_slash_of_isName hnames.2
    have hname : name.toList ≠ [] := by
      intro hnil
      have hempty : name = "" := by simpa using hnil
      rw [hempty] at hnames
      exact absurd hnames.2 (by decide)
    have hlast : (Trail.ofNames (outer ++ [name])).location.toList.getLast? ≠ some '/' := by
      rw [location_ofNames_concat]
      intro hend
      rw [String.toList_append, List.getLast?_append_of_ne_nil _ hname] at hend
      exact hslash (List.mem_of_getLast? hend)
    have htrail' : ∃ location rest, Trail.ofNames (outer ++ [name]) = location :: rest := by
      unfold Trail.ofNames
      rw [List.foldl_append]
      exact ⟨_, _, rfl⟩
    obtain ⟨location, rest, hcons⟩ := htrail'
    rw [hcons] at hlast ⊢
    simp only [Trail.location] at hlast ⊢
    rw [if_neg hlast]

theorem walk_absolute (disk : Disk) {path : String} (h : FilePath.isAbsolute path = false) :
    ∃ outer, FilePath.parts (FilePath.absolute disk.workingPath path) =
        outer ++ FilePath.parts path ∧ walk [] outer = disk.workingDirectory := by
  obtain ⟨names, hnames, htrail⟩ := disk.named
  refine ⟨"" :: names, ?_, ?_⟩
  · rw [absolute_eq disk h, FilePath.parts_append, htrail, parts_location hnames]
  · rw [htrail]
    exact walk_names [] hnames

theorem head?_location (names : List String) (rest : List Char) :
    ((Trail.ofNames names).location.toList ++ '/' :: rest).head? = some '/' := by
  induction names using List.reverseRecOn generalizing rest with
  | nil => rfl
  | append_singleton names name ih =>
    rw [location_ofNames_concat]
    simpa using ih (name.toList ++ '/' :: rest)

theorem isAbsolute_absolute (disk : Disk) (path : String) :
    FilePath.isAbsolute (FilePath.absolute disk.workingPath path) = true := by
  cases hpath : FilePath.isAbsolute path with
  | true => rw [FilePath.absolute, if_pos hpath, hpath]
  | false =>
    obtain ⟨names, -, htrail⟩ := disk.named
    rw [absolute_eq disk hpath, htrail, FilePath.isAbsolute, decide_eq_true_eq]
    simpa using head?_location names path.toList

theorem destination_absolute (disk : Disk) (path : String) :
    disk.destination (FilePath.absolute disk.workingPath path) = disk.destination path := by
  cases hpath : FilePath.isAbsolute path with
  | true => rw [FilePath.absolute, if_pos hpath]
  | false =>
    obtain ⟨outer, hparts, hwalk⟩ := walk_absolute disk hpath
    unfold destination
    rw [origin, if_pos (isAbsolute_absolute disk path), hparts, walk_append, hwalk, origin, hpath]
    rfl

/-- A path leads where its absolute path leads, if that path asks for no directory. -/
theorem Reaches.of_absolute {disk : Disk} {path : String} {trail : Trail}
    (h : disk.Reaches (FilePath.absolute disk.workingPath path) trail)
    (hasks : asksForDirectory (FilePath.absolute disk.workingPath path) = false) :
    disk.Reaches path trail := by
  cases hpath : FilePath.isAbsolute path with
  | true =>
    rw [FilePath.absolute, if_pos hpath] at h
    exact h
  | false =>
    obtain ⟨outer, hparts, hwalk⟩ := walk_absolute disk hpath
    obtain ⟨hstart, hfollow⟩ := h
    refine ⟨exists_start_eq_ok_iff.mpr ?_, ?_⟩
    · rw [absolute_eq disk hpath] at hstart hasks
      obtain ⟨hzero, -, hlong⟩ := exists_start_eq_ok_iff.mp hstart
      refine ⟨fun hmem => hzero (by simp [hmem]), ?_, ?_⟩
      · rintro rfl
        rw [asksForDirectory_slash] at hasks
        cases hasks
      · rw [String.utf8ByteSize_append] at hlong
        omega
    · rw [origin, isAbsolute_absolute, if_pos rfl, hparts] at hfollow
      rw [origin, hpath, ← hwalk]
      exact follow_append hfollow

/-- **A file written at the absolute path** is what the path then leads to. -/
theorem lookup_of_written {disk later : Disk} {path : String} {content : ByteArray}
    (h : disk.writeBytes (FilePath.absolute disk.workingPath path) content = .ok later) :
    later.lookup path = .ok (.file content) := by
  have hkeeps := keeps_writeBytes h
  obtain ⟨hl, rfl⟩ := writeBytes_eq_ok h
  obtain ⟨hasks, ⟨trail, hreach⟩, -, -⟩ := fileLocation_eq_ok hl
  refine lookup_eq_ok_iff.mpr ⟨trail, hkeeps.reaches (hreach.of_absolute hasks), ?_⟩
  rw [hreach.location, get?_put, if_pos rfl]

end Disk

end AbiRecovery
