import AbiRecovery.Abi.Document
import AbiRecovery.Store.Host
import AbiRecovery.Tree.Reader

/-!
# Extraction

A run reads a tree, analyses it, and merges the document of the analysis into the one that is
stored. A stored document that cannot be read stops the run before anything is written.
-/

namespace AbiRecovery

open AbiRecovery.Tree

/-- The analysis of the text of a tree, and what is reported on the way. -/
def analyzeText (content : String) : Except AbiError (Analysis × List Event) :=
  match File.ofText content with
  | .ok file => .ok (Analysis.ofFile file, Analysis.eventsOf file)
  | .error fault => .error (.ofTreeFault fault)

/-- The document in the text of a file that is stored at `path`. -/
def storedDocument (path content : String) : Except AbiError Document :=
  match Document.ofText content with
  | .ok document => .ok document
  | .error fault => .error (.ofStoredFault path fault)

section

variable {m : Type → Type} [Monad m]

/-- Reports events in order. -/
def logAll [Host m] : List Event → m Unit
  | [] => pure ()
  | event :: events => do
    Host.log event
    logAll events

/-- The value of a result; its fault stops the run. -/
def orFail {ε α : Type} (failure : ε → Failure) (result : Except ε α) : ExceptT Failure m α :=
  match result with
  | .ok value => return value
  | .error fault => throw (failure fault)

variable [Host m]

/-- The document that is stored at a path, if anything is there. -/
def loadDocument? (path : String) : ExceptT Failure m (Option Document) := do
  if ← Host.pathExists path then
    let content ← orFail (fun fault => .abi (.io fault)) (← Host.readText path)
    some <$> orFail .abi (storedDocument path content)
  else
    return none

/-- The absolute path that a path stands for. The working directory is asked for only where it is
needed. -/
def resolvePath (path : String) : ExceptT Failure m String := do
  if FilePath.isAbsolute path then return path
  else
    let directory ← orFail .workingDirectory (← Host.workingDirectory)
    return FilePath.absolute directory path

/-- Makes the directory around an absolute path, unless it is there. -/
def ensureParent (path : String) : ExceptT Failure m Unit := do
  match FilePath.parent? path with
  | none => return ()
  | some parent =>
    if ← Host.pathExists parent then return ()
    else
      Host.log (.creatingDirectory parent)
      orFail (.createDirectory parent) (← createDirectories parent)

/-- Makes a file; a fault is reported at once. -/
def makeFile (path : String) : ExceptT Failure m Unit := do
  match ← Host.createFile path with
  | .ok () => return ()
  | .error fault =>
    Host.log (.createFailed path fault.message)
    throw (.createFile path fault)

/-- Saves a document at a path. -/
def saveDocument (document : Document) (path : String) : ExceptT Failure m Unit := do
  let target ← resolvePath path
  Host.log (.saving target)
  ensureParent target
  let content := document.render
  makeFile target
  orFail (.writeFile target) (← Host.writeText target content)
  Host.log (.wrote content.utf8ByteSize target)

/-- The analysis of a text, with its reports. -/
def analyze (content : String) : ExceptT Failure m Analysis := do
  let (analysis, events) ← orFail .abi (analyzeText content)
  logAll events
  return analysis

/-- Merges a document into the one that is stored at a path, if there is one. -/
def mergeStored (document : Document) (path : String) : ExceptT Failure m Document := do
  match ← loadDocument? path with
  | none => return document
  | some stored =>
    Host.log (stored.mergeEvent document)
    return stored.merge document

/-- The document of the tree in a file. With an output path it is merged into the document that is
stored there, and saved. -/
def extract (tree name : String) (output : Option String) : ExceptT Failure m Document := do
  Host.log (.reading tree)
  let content ← orFail (.readTree tree) (← Host.readText tree)
  let analysis ← analyze content
  let document := Document.ofAnalysis name analysis
  match output with
  | none => return document
  | some path =>
    let merged ← mergeStored document path
    saveDocument merged path
    return merged

end

end AbiRecovery
