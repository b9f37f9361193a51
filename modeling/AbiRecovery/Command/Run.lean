import AbiRecovery.Command.Options
import AbiRecovery.Extraction

/-!
# Running a command line
-/

namespace AbiRecovery

/-- The name and version of the program. -/
def banner : String := "Solana ABI Extractor v0.1.0"

/-- The help that is printed when no tree is given. -/
def usageLines (program : String) : List String :=
  [banner,
    "",
    "Usage:",
    "  " ++ program ++ " <TREE_JSON> [--output PATH] [--name NAME] [--raw]",
    "  " ++ program ++ " --version",
    "",
    "Options:",
    "  --output, -o PATH    Merge the ABI into the document at PATH",
    "  --name, -n NAME      Program name (default: tree file stem)",
    "  --raw                Print the full analysis instead of the ABI",
    "  --version, -v        Show version information"]

section

variable {m : Type → Type} [Monad m] [Host m]

/-- Prints lines in order. -/
def printAll : List String → m Unit
  | [] => pure ()
  | line :: lines => do
    Host.print line
    printAll lines

/-- Prints the full analysis of a tree. -/
def runRaw (tree : String) : ExceptT Failure m Unit := do
  let content ← orFail .unreadable (← Host.readText tree)
  let analysis ← analyze content
  Host.print analysis.toJson.pretty

/-- Extracts the document of a tree, and prints it or where it was saved. -/
def runExtract (tree : String) (options : Options) : ExceptT Failure m Unit := do
  let document ← extract tree (options.name.getD (FilePath.stem tree)) options.output
  match options.output with
  | some path =>
    Host.print ("Recovered " ++ toString document.instructions.length ++ " instructions for " ++
      document.name)
    Host.print ("Saved to: " ++ path)
  | none => Host.print document.render

/-- Runs with options. Words that are no options are reported first, and an option without its value
stops the run. -/
def runOptions (tree : String) (options : Options) : ExceptT Failure m Unit := do
  printAll (options.unknown.map ("Unknown argument: " ++ ·))
  match options.incomplete with
  | some option => Host.print ("Error: Missing value for " ++ option.word)
  | none => if options.raw then runRaw tree else runExtract tree options

/-- Runs a command line. -/
def runCommand (program : String) (words : List String) : ExceptT Failure m Unit :=
  match Request.ofWords words with
  | .usage => printAll (usageLines program)
  | .version => Host.print banner
  | .run tree options => runOptions tree options

end

end AbiRecovery
