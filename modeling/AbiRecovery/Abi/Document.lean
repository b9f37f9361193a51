import AbiRecovery.Analysis
import AbiRecovery.Digest.Sha256
import AbiRecovery.Json.Printer

/-!
# ABI documents

The document that is stored for a program. Merging takes over the instructions of a newer document
one by one: an instruction replaces the stored one of the same opcode, but an account list that is
known already is kept when the newer instruction has none. The fingerprint is that of the compact
text of the instruction list.
-/

namespace AbiRecovery

open Json

/-- What a document says about its origin. -/
structure Metadata where
  origin : String
  instructionEnum : Option String
  fingerprint : String
  imports : Imports
deriving DecidableEq

/-- An ABI document. -/
structure Document where
  name : String
  version : String
  instructions : List Instruction
  metadata : Metadata
deriving DecidableEq

namespace Metadata

/-- The JSON value of metadata. -/
def toJson (metadata : Metadata) : Json :=
  .obj
    ([("origin", .str metadata.origin)] ++
      optionalMember "instructionEnum" (metadata.instructionEnum.map .str) ++
      [("fingerprint", .str metadata.fingerprint), ("imports", metadata.imports.toJson)])

/-- The shape of metadata. -/
def shape : Shape :=
  .record "Metadata"
    [("origin", .required, .text), ("instructionEnum", .defaulted, .optional .text),
      ("fingerprint", .required, .text), ("imports", .defaulted, Imports.shape)]

/-- The metadata that a value of the shape stands for. -/
def ofJson (value : Json) : Metadata :=
  { origin := (value.field "origin").toText
    instructionEnum := (value.field "instructionEnum").toText?
    fingerprint := (value.field "fingerprint").toText
    imports := Imports.ofJson (value.field "imports") }

end Metadata

namespace Document

/-- The JSON value of a document. -/
def toJson (document : Document) : Json :=
  .obj
    [("name", .str document.name), ("version", .str document.version),
      ("instructions", Instruction.listToJson document.instructions),
      ("metadata", document.metadata.toJson)]

/-- The shape of a document. -/
def shape : Shape :=
  .record "AbiDocument"
    [("name", .required, .text), ("version", .required, .text),
      ("instructions", .required, .list Instruction.shape), ("metadata", .required, Metadata.shape)]

/-- The document that a value of the shape stands for. -/
def ofJson (value : Json) : Document :=
  { name := (value.field "name").toText
    version := (value.field "version").toText
    instructions := (value.field "instructions").toItems.map Instruction.ofJson
    metadata := Metadata.ofJson (value.field "metadata") }

/-- Reads a document from a text. -/
def ofText (content : String) : Except Fault Document :=
  (shape.readText content).map ofJson

/-- The text of a document. -/
def render (document : Document) : String :=
  document.toJson.pretty

/-! ### Fingerprints -/

/-- The fingerprint of an instruction list. -/
def fingerprintOf (instructions : List Instruction) : String :=
  fingerprint (Instruction.listToJson instructions).compact.toUTF8.toList

/-- The document with the fingerprint of its instructions. -/
def refresh (document : Document) : Document :=
  { document with
    metadata := { document.metadata with fingerprint := fingerprintOf document.instructions } }

/-! ### Building and merging -/

/-- The word for an origin that is not known. -/
def unknownOrigin : String := "unknown"

/-- A document without instructions. -/
def empty (name : String) : Document :=
  refresh
    { name := name
      version := "0.1.0"
      instructions := []
      metadata :=
        { origin := unknownOrigin, instructionEnum := none, fingerprint := "", imports := { } } }

/-- An instruction that takes the place of a stored one. -/
def supersede (stored incoming : Instruction) : Instruction :=
  { incoming with accounts := incoming.accounts.or stored.accounts }

/-- Replaces the first instruction that has the same opcode. -/
def replaceFirst (incoming : Instruction) : List Instruction → List Instruction
  | [] => []
  | stored :: rest =>
    if stored.code = incoming.code then supersede stored incoming :: rest
    else stored :: replaceFirst incoming rest

/-- Sorts instructions by opcode; those of one opcode keep their order. -/
def sortByCode (instructions : List Instruction) : List Instruction :=
  instructions.mergeSort fun first second => first.code ≤ second.code

/-- Adds an instruction to an instruction list: in the place of the first one with its opcode, or
else at the place of its opcode. -/
def addInstruction (instructions : List Instruction) (incoming : Instruction) : List Instruction :=
  if instructions.any fun stored => stored.code = incoming.code then
    replaceFirst incoming instructions
  else sortByCode (instructions ++ [incoming])

/-- Adds an instruction to a document. -/
def add (document : Document) (incoming : Instruction) : Document :=
  { document with instructions := addInstruction document.instructions incoming }

/-- The document of an analysis. -/
def ofAnalysis (name : String) (analysis : Analysis) : Document :=
  let document := analysis.instructions.foldl add (empty name)
  refresh
    { document with
      metadata :=
        { document.metadata with
          origin := analysis.source.origin
          instructionEnum := analysis.source.enumName?
          imports := analysis.imports } }

/-- Merges a newer document into a stored one. -/
def merge (stored incoming : Document) : Document :=
  let document := incoming.instructions.foldl add stored
  refresh
    { document with
      metadata :=
        { stored.metadata with
          origin :=
            if incoming.metadata.origin = unknownOrigin then stored.metadata.origin
            else incoming.metadata.origin
          instructionEnum := incoming.metadata.instructionEnum.or stored.metadata.instructionEnum
          imports := incoming.metadata.imports } }

/-- What is reported when a newer document is merged into a stored one. -/
def mergeEvent (stored incoming : Document) : Event :=
  let merged := stored.merge incoming
  if stored.metadata.fingerprint = merged.metadata.fingerprint then .unchanged merged.name
  else .updated merged.name merged.instructions.length

end Document

end AbiRecovery
