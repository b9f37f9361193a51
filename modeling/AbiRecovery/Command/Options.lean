import AbiRecovery.Store.FilePath

/-!
# The command line

The first word is the tree, or a request for the version. Options follow in any order, and the last
value of an option counts. A word that is no option is reported and ignored.
-/

namespace AbiRecovery

/-- An option that takes a value. -/
inductive ValueOption where
  | output
  | name
deriving DecidableEq

/-- The long form of an option. -/
def ValueOption.word : ValueOption → String
  | output => "--output"
  | name => "--name"

/-- What the options of a run say. -/
structure Options where
  output : Option String := none
  name : Option String := none
  raw : Bool := false
  /-- The words that are no options, in order. -/
  unknown : List String := []
  /-- An option at the end of the line that lacks its value. -/
  incomplete : Option ValueOption := none
deriving DecidableEq

namespace Options

/-- The option that a word stands for. -/
def valueOption? : String → Option ValueOption
  | "--output" => some .output
  | "-o" => some .output
  | "--name" => some .name
  | "-n" => some .name
  | _ => none

/-- Sets the value of an option. -/
def set (options : Options) (option : ValueOption) (value : String) : Options :=
  match option with
  | .output => { options with output := some value }
  | .name => { options with name := some value }

/-- Reads a word that takes no value. -/
def word (options : Options) (text : String) : Options :=
  if text = "--raw" then { options with raw := true }
  else { options with unknown := options.unknown ++ [text] }

/-- Reads the words of a line. -/
def read (options : Options) : List String → Options
  | [] => options
  | [text] =>
    match valueOption? text with
    | some option => { options with incomplete := some option }
    | none => options.word text
  | text :: value :: rest =>
    match valueOption? text with
    | some option => read (options.set option value) rest
    | none => read (options.word text) (value :: rest)

end Options

/-- What a command line asks for. -/
inductive Request where
  | usage
  | version
  | run (tree : String) (options : Options)
deriving DecidableEq

/-- The request of the words after the name of the program. -/
def Request.ofWords : List String → Request
  | [] => usage
  | tree :: words =>
    if tree = "--version" ∨ tree = "-v" then version else run tree (Options.read { } words)

end AbiRecovery
