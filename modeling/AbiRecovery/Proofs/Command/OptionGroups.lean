import AbiRecovery.Command.Run
import AbiRecovery.Proofs.Extraction.Effects

/-!
# Command lines, group by group

The words behind the tree of a command line come in groups: an option and its value, the flag for
the full analysis, or a word that is no option. A value may be any text, also one that is an option
itself in another place. Reading a group leaves the rest of the line to the groups behind it
(`read_words_append`), so the options of a line are those of its groups in order
(`read_groups_append`), and of several values for one option the last one counts (`summary`).

Every list of words is made of groups, up to an option at its end that lacks its value
(`exists_groups`). A line with such an option only prints, on every host.
-/

namespace AbiRecovery

/-! ### Groups -/

/-- The words for an option: a long one and a short one. -/
def ValueOption.flag (option : ValueOption) (short : Bool) : String :=
  match option, short with
  | output, false => "--output"
  | output, true => "-o"
  | name, false => "--name"
  | name, true => "-n"

/-- The words that are options. -/
def optionWords : List String := ["--output", "-o", "--name", "-n", "--raw"]

/-- A **group** of words of a command line. -/
inductive OptionGroup where
  /-- An option and its value. -/
  | value (option : ValueOption) (short : Bool) (text : String)
  /-- The flag for the full analysis. -/
  | raw
  /-- A word that is no option. -/
  | stray (word : String) (h : word ∉ optionWords)
deriving DecidableEq

namespace OptionGroup

/-- The words of a group. -/
def words : OptionGroup → List String
  | value option short text => [option.flag short, text]
  | raw => ["--raw"]
  | stray word _ => [word]

/-- The value that a group has for an option. -/
def value? (option : ValueOption) : OptionGroup → Option String
  | value other _ text => if other = option then some text else none
  | _ => none

/-- The word of a group that is no option. -/
def stray? : OptionGroup → Option String
  | stray word _ => some word
  | _ => none

/-- The words of groups that are no options. -/
def strays (groups : List OptionGroup) : List String :=
  groups.filterMap stray?

/-- The last value that groups have for an option. -/
def last? (option : ValueOption) (groups : List OptionGroup) : Option String :=
  (groups.filterMap (value? option)).getLast?

/-- What groups say, whatever their order. -/
def summary (groups : List OptionGroup) : Options :=
  { output := last? .output groups
    name := last? .name groups
    raw := raw ∈ groups
    unknown := strays groups }

/-- What is said after one more group. -/
def apply (options : Options) : OptionGroup → Options
  | value option _ text => options.set option text
  | raw => { options with raw := true }
  | stray word _ => { options with unknown := options.unknown ++ [word] }

end OptionGroup

open OptionGroup

/-! ### Reading -/

namespace Options

theorem valueOption?_flag (option : ValueOption) (short : Bool) :
    valueOption? (option.flag short) = some option := by
  cases option <;> cases short <;> rfl

theorem valueOption?_stray {word : String} (h : word ∉ optionWords) : valueOption? word = none := by
  unfold valueOption?
  split <;> simp_all [optionWords]

theorem read_cons {options : Options} {text : String} (h : valueOption? text = none)
    (rest : List String) : options.read (text :: rest) = (options.word text).read rest := by
  cases rest with
  | nil => simp only [read, h]
  | cons next rest => simp only [read, h]

/-- **One group** is read, and what stands behind it is read after it. -/
theorem read_words_append (options : Options) (group : OptionGroup) (rest : List String) :
    options.read (group.words ++ rest) = (group.apply options).read rest := by
  cases group with
  | value option short text =>
    have hflag := valueOption?_flag option short
    simp only [words, List.cons_append, List.nil_append, read, hflag, apply]
  | raw =>
    rw [words, List.singleton_append, read_cons rfl]
    rfl
  | stray word h =>
    have hraw : word ≠ "--raw" := fun heq => h (by simp [heq, optionWords])
    rw [words, List.singleton_append, read_cons (valueOption?_stray h), Options.word, if_neg hraw]
    rfl

theorem read_groups_append (options : Options) (groups : List OptionGroup) (rest : List String) :
    options.read (groups.flatMap words ++ rest) = (groups.foldl apply options).read rest := by
  induction groups generalizing options with
  | nil => rfl
  | cons group groups ih =>
    rw [List.flatMap_cons, List.append_assoc, read_words_append, ih, List.foldl_cons]

end Options

theorem summary_concat (groups : List OptionGroup) (group : OptionGroup) :
    summary (groups ++ [group]) = group.apply (summary groups) := by
  cases group with
  | value option short text =>
    cases option <;> simp [summary, apply, last?, strays, value?, stray?, Options.set]
  | raw => simp [summary, apply, last?, strays, value?, stray?]
  | stray word h => simp [summary, apply, last?, strays, value?, stray?]

theorem foldl_apply_eq_summary (groups : List OptionGroup) :
    groups.foldl apply { } = summary groups := by
  induction groups using List.reverseRecOn with
  | nil => rfl
  | append_singleton groups group ih => rw [List.foldl_concat, ih, summary_concat]

/-! ### All lines -/

theorem exists_group_or_flag (text : String) :
    (∃ group : OptionGroup, group.words = [text]) ∨
      ∃ (option : ValueOption) (short : Bool), text = option.flag short := by
  by_cases h : text ∈ optionWords
  · simp only [optionWords, List.mem_cons, List.not_mem_nil, or_false] at h
    rcases h with rfl | rfl | rfl | rfl | rfl
    · exact Or.inr ⟨.output, false, rfl⟩
    · exact Or.inr ⟨.output, true, rfl⟩
    · exact Or.inr ⟨.name, false, rfl⟩
    · exact Or.inr ⟨.name, true, rfl⟩
    · exact Or.inl ⟨.raw, rfl⟩
  · exact Or.inl ⟨.stray text h, rfl⟩

/-- **Every line** is made of groups, up to an option at its end that lacks its value. -/
theorem exists_groups : ∀ line : List String, ∃ groups : List OptionGroup,
    line = groups.flatMap words ∨
      ∃ (option : ValueOption) (short : Bool), line = groups.flatMap words ++ [option.flag short]
  | [] => ⟨[], Or.inl rfl⟩
  | [text] => by
    rcases exists_group_or_flag text with ⟨group, hgroup⟩ | ⟨option, short, rfl⟩
    · exact ⟨[group], Or.inl (by simp [hgroup])⟩
    · exact ⟨[], Or.inr ⟨option, short, rfl⟩⟩
  | text :: next :: line => by
    rcases exists_group_or_flag text with ⟨group, hgroup⟩ | ⟨option, short, rfl⟩
    · obtain ⟨groups, hgroups⟩ := exists_groups (next :: line)
      exact ⟨group :: groups, by simpa [hgroup] using hgroups⟩
    · obtain ⟨groups, hgroups⟩ := exists_groups line
      exact ⟨.value option short next :: groups, by simpa [words] using hgroups⟩

/-! ### Running -/

section
variable {m : Type → Type} [Monad m] [Host m]

/-- Prints a document, or where it was saved. -/
def printDocument (output : Option String) (document : Document) : ExceptT Failure m Unit :=
  match output with
  | some path => do
    Host.print ("Recovered " ++ toString document.instructions.length ++ " instructions for " ++
      document.name)
    Host.print ("Saved to: " ++ path)
  | none => Host.print document.render

theorem runExtract_eq (tree : String) (options : Options) :
    (runExtract tree options : ExceptT Failure m Unit) =
      extract tree (options.name.getD (FilePath.stem tree)) options.output >>=
        printDocument options.output := rfl

theorem runCommand_eq {tree : String} (h : tree ≠ "--version" ∧ tree ≠ "-v") (program : String)
    (line : List String) :
    (runCommand program (tree :: line) : ExceptT Failure m Unit) =
      runOptions tree (Options.read { } line) := by
  rw [runCommand, Request.ofWords, if_neg (not_or.mpr h)]

theorem runCommand_groups {tree : String} (h : tree ≠ "--version" ∧ tree ≠ "-v") (program : String)
    (groups : List OptionGroup) :
    (runCommand program (tree :: groups.flatMap words) : ExceptT Failure m Unit) = (do
      printAll ((strays groups).map ("Unknown argument: " ++ ·))
      if OptionGroup.raw ∈ groups then runRaw tree
      else
        extract tree ((last? .name groups).getD (FilePath.stem tree)) (last? .output groups) >>=
          printDocument (last? .output groups)) := by
  have hread := Options.read_groups_append { } groups []
  rw [List.append_nil, foldl_apply_eq_summary, Options.read] at hread
  rw [runCommand_eq h, hread, runOptions]
  simp only [summary, decide_eq_true_eq, runExtract_eq]

theorem runCommand_incomplete {tree : String} (h : tree ≠ "--version" ∧ tree ≠ "-v")
    (program : String) (groups : List OptionGroup) (option : ValueOption) (short : Bool) :
    (runCommand program (tree :: groups.flatMap words ++ [option.flag short]) :
      ExceptT Failure m Unit) = (do
        printAll ((strays groups).map ("Unknown argument: " ++ ·))
        Host.print ("Error: Missing value for " ++ option.flag false)) := by
  have hread := Options.read_groups_append { } groups [option.flag short]
  rw [foldl_apply_eq_summary] at hread
  simp only [Options.read, Options.valueOption?_flag] at hread
  have hword : option.word = option.flag false := by cases option <;> rfl
  rw [List.cons_append, runCommand_eq h, hread, runOptions, ← hword]
  rfl

end

theorem outcome_printAll (lines : List String) (world : World) :
    outcome (printAll lines) world =
      (.ok (), { world with printed := world.printed ++ lines }) := by
  induction lines generalizing world with
  | nil => simp [printAll]
  | cons line lines ih =>
    have hprint : outcome (Host.print line) world =
        (.ok (), { world with printed := world.printed ++ [line] }) := rfl
    rw [printAll, outcome_bind, hprint]
    simp only [ih, List.append_assoc, List.singleton_append]

theorem disk_runRaw (tree : String) (world : World) :
    (outcome (runRaw tree) world).2.disk = world.disk := by
  unfold runRaw
  rw [outcome_bind, outcome_readText]
  simp only
  rw [outcome_bind, outcome_orFail]
  cases world.disk.readText tree with
  | error fault => rfl
  | ok content =>
    simp only [Except.mapError]
    rw [outcome_bind, outcome_analyze]
    rcases analyzeText content with fault | ⟨analysis, events⟩ <;> rfl

/-- **A command line does what its groups say.** Let groups of options follow a tree. Then the run
reports the words that are no options, in order. With the flag for the full analysis among the
groups it prints that one, and the disk stays as it is, whatever the other groups say. Otherwise it
extracts the document of the tree, with the last name that is given or else that of the file, and
with the last output path that is given. If an option without a value follows the groups, the run
reports the words and the missing value and does nothing else: on every host, also on one that keeps
track of what is read and written, it is the program that prints these lines. -/
theorem command_line_by_groups {tree : String} (htree : tree ≠ "--version" ∧ tree ≠ "-v")
    (program : String) (groups : List OptionGroup) :
    let line := tree :: groups.flatMap words
    let reports := (strays groups).map ("Unknown argument: " ++ ·)
    let output := last? .output groups
    let name := (last? .name groups).getD (FilePath.stem tree)
    (∀ {m : Type → Type} [Monad m] [Host m],
      (runCommand program line : ExceptT Failure m Unit) = do
        printAll reports
        if OptionGroup.raw ∈ groups then runRaw tree
        else extract tree name output >>= printDocument output) ∧
    (∀ (option : ValueOption) (short : Bool) {m : Type → Type} [Monad m] [Host m],
      (runCommand program (line ++ [option.flag short]) : ExceptT Failure m Unit) = do
        printAll reports
        Host.print ("Error: Missing value for " ++ option.flag false)) ∧
    (OptionGroup.raw ∈ groups → ∀ world : World,
      (outcome (runCommand program line) world).2.disk = world.disk) := by
  intro line reports output name
  refine ⟨runCommand_groups htree program groups,
    fun option short m _ _ => runCommand_incomplete htree program groups option short,
    fun hraw world => ?_⟩
  rw [runCommand_groups htree, if_pos hraw, outcome_bind, outcome_printAll]
  exact disk_runRaw tree _

/-- Values that look like options are values: `--raw` is the output path and `-o` the name here. With
a flag `--raw` of its own a line writes nothing, and with `-n` at its end it only prints. -/
theorem command_line_of_flag_values :
    ("shop.json" ≠ "--version" ∧ "shop.json" ≠ "-v") ∧
      (∀ {m : Type → Type} [Monad m] [Host m],
        (runCommand "abi" ["shop.json", "-o", "abi.json", "all", "--output", "--raw", "-n", "-o"] :
          ExceptT Failure m Unit) = do
            printAll ["Unknown argument: all"]
            extract "shop.json" "-o" (some "--raw") >>= printDocument (some "--raw")) ∧
      (∀ world : World, (outcome (runCommand "abi" ["shop.json", "-o", "abi.json", "--raw"])
        world).2.disk = world.disk) ∧
      ∀ {m : Type → Type} [Monad m] [Host m],
        (runCommand "abi" ["shop.json", "--raw", "all", "-n"] : ExceptT Failure m Unit) = (do
          printAll ["Unknown argument: all"]
          Host.print "Error: Missing value for --name") := by
  have htree : "shop.json" ≠ "--version" ∧ "shop.json" ≠ "-v" := by decide
  have hvalues := command_line_by_groups htree "abi" [.value .output true "abi.json",
    .stray "all" (by decide), .value .output false "--raw", .value .name true "-o"]
  have hraw := command_line_by_groups htree "abi" [.value .output true "abi.json", .raw]
  have hincomplete := command_line_by_groups htree "abi" [.raw, .stray "all" (by decide)]
  refine ⟨htree, fun {m} _ _ => ?_, hraw.2.2 (by decide), hincomplete.2.1 .name true⟩
  have hrun := hvalues.1 (m := m)
  rw [if_neg (by decide)] at hrun
  exact hrun

end AbiRecovery
