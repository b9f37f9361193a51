/-!
# Paths of files

A path is a text with slashes between its parts. Empty parts and parts that are a single dot do not
count, except that they ask for a directory when they stand at the end.
-/

namespace AbiRecovery.FilePath

/-- The parts of a text between slashes. -/
def splitChars : List Char → List (List Char)
  | [] => [[]]
  | '/' :: text => [] :: splitChars text
  | c :: text =>
    match splitChars text with
    | part :: parts => (c :: part) :: parts
    | [] => [[c]]

/-- The parts of a path. -/
def parts (path : String) : List String :=
  (splitChars path.toList).map String.ofList

/-- Whether a path starts at the root. -/
def isAbsolute (path : String) : Bool :=
  path.toList.head? = some '/'

/-- Whether a part does not count. -/
def isBlank (part : String) : Bool :=
  part = "" || part = "."

/-- Whether a part is the name of a file or a directory. -/
def isName (part : String) : Bool :=
  !isBlank part && part ≠ ".." && '/' ∉ part.toList

/-- The paths that lead to the parts of a path, for parts that are given last first. -/
def ancestorsOf : List String → List String
  | [] => []
  | part :: outer =>
    if isBlank part then ancestorsOf outer
    else "/".intercalate (part :: outer).reverse :: ancestorsOf outer

/-- A path, the path of the directory around it, and so on outwards, without the root. -/
def ancestors (path : String) : List String :=
  ancestorsOf (parts path).reverse

/-- The path of the directory around an absolute path; none for the root. -/
def parent? (path : String) : Option String :=
  match ancestors path with
  | [] => none
  | [_] => some "/"
  | _ :: parent :: _ => some parent

/-- The last name of a path, unless it leads upwards. -/
def fileName? (path : String) : Option String :=
  match (parts path).reverse.find? fun part => !isBlank part with
  | some ".." => none
  | name => name

/-- An absolute path for a path that starts at the directory `directory`. -/
def absolute (directory path : String) : String :=
  if isAbsolute path then path
  else if directory.toList.getLast? = some '/' then directory ++ path
  else directory ++ "/" ++ path

/-- The name of a file up to its first dot. -/
def stem (path : String) : String :=
  String.ofList (((fileName? path).getD "program").toList.takeWhile (· ≠ '.'))

end AbiRecovery.FilePath
