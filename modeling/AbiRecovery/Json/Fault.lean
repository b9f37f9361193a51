import AbiRecovery.Json.Draft
import AbiRecovery.Text.Quoted

/-!
# What can be wrong with a JSON document

`Fault` lists the causes, `Fault.message` words them. `Draft.mismatch` is the fault of a value of
the wrong kind: it names what the text has there, so the text has to be readable that far.
-/

namespace AbiRecovery.Json

/-- What a document has where something else was expected. -/
inductive Found where
  | null
  | bool (value : Bool)
  | num (value : Number)
  | str (text : String)
  | sequence
  | map

/-- Why a text is not the document it should be. -/
inductive Fault where
  /-- The text is not well-formed JSON. -/
  | malformed
  /-- A value has the wrong kind. -/
  | mismatch (found : Found) (expected : String)
  /-- An integer is out of range. -/
  | outOfRange (value : Int) (expected : String)
  /-- A required key is missing. -/
  | missing (key : String)
  /-- A key is given twice. -/
  | duplicate (key : String)
  /-- A list has the wrong number of items. -/
  | length (found : Nat) (expected : String)

/-- The wording of what was found. -/
def Found.describe : Found → String
  | null => "null"
  | bool value => "boolean `" ++ (if value then "true" else "false") ++ "`"
  | num (.int value) => "integer `" ++ (Number.int value).text ++ "`"
  | num (.float value) => "floating point `" ++ (Number.float value).text ++ "`"
  | str text => "string " ++ Text.quoted text
  | sequence => "sequence"
  | map => "map"

/-- The wording of a fault. -/
def Fault.message : Fault → String
  | malformed => "malformed JSON"
  | mismatch found expected => "invalid type: " ++ found.describe ++ ", expected " ++ expected
  | outOfRange value expected =>
    "invalid value: integer `" ++ toString value ++ "`, expected " ++ expected
  | missing key => "missing field `" ++ key ++ "`"
  | duplicate key => "duplicate field `" ++ key ++ "`"
  | length found expected => "invalid length " ++ toString found ++ ", expected " ++ expected

/-- What a draft shows of its value; none if the text goes wrong before that. A container shows as
soon as it is opened. -/
def Draft.found? : Draft → Option Found
  | null => some .null
  | bool value => some (.bool value)
  | num numeral => numeral.toNumber?.map .num
  | str text => text.map .str
  | arr _ _ => some .sequence
  | obj _ _ => some .map
  | cut => none

/-- The fault of a draft whose value has the wrong kind. -/
def Draft.mismatch (draft : Draft) (expected : String) : Fault :=
  match draft.found? with
  | some found => .mismatch found expected
  | none => .malformed

end AbiRecovery.Json
