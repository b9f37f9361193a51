/-!
# Paths as text

A path is written with `::` between its names. `Text.segmentsFromEnd` takes a written path apart
again, last name first; a run of more than two colons is split at its end. `Text.hasInfix` looks for
a word inside a name.
-/

namespace AbiRecovery.Text

/-- Whether `word` stands somewhere in `text`. -/
def hasInfixChars (word : List Char) : List Char → Bool
  | [] => word.isEmpty
  | c :: text => word.isPrefixOf (c :: text) || hasInfixChars word text

/-- Whether the text `word` stands somewhere in `text`. -/
def hasInfix (word text : String) : Bool :=
  hasInfixChars word.toList text.toList

/-- Splits a text that is given backwards at its double colons; `segment` is the part of the current
segment that was read already. -/
def splitBackwards (segment : List Char) : List Char → List (List Char)
  | ':' :: ':' :: text => segment :: splitBackwards [] text
  | c :: text => splitBackwards (c :: segment) text
  | [] => [segment]

/-- The segments of a written path, the last one first. -/
def segmentsFromEnd (path : String) : List String :=
  (splitBackwards [] path.toList.reverse).map String.ofList

end AbiRecovery.Text
