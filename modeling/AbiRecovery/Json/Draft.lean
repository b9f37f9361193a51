import AbiRecovery.Json.Token

/-!
# Drafts: a JSON text as far as it can be read

A `Draft` is the tree of a text up to its first error. A container that the error leaves open is not
`closed`, and so are all containers around it; a key whose value is missing has the value `cut`. A
reader that walks a draft in the order of the text therefore meets the errors of the text in that
order too. Numbers stay numerals and strings may lack a text: whether they must have a value is for
the reader to say.

Containers that are still open wait in a list of frames, so a text may nest to any depth.
`Draft.value?` is the strict reading: it refuses whatever is not a value, and containers nested more
deeply than `room` allows.
-/

namespace AbiRecovery.Json

/-- The tree of a JSON text up to its first error. -/
inductive Draft where
  | null
  | bool (value : Bool)
  | num (numeral : Numeral)
  | str (text : Option String)
  | arr (items : List Draft) (closed : Bool)
  | obj (members : List (Option String × Draft)) (closed : Bool)
  | cut

/-- A container that waits for a value, with what it holds so far, newest first. -/
inductive Frame where
  | arr (items : List Draft)
  | obj (members : List (Option String × Draft)) (key : Option String)

/-- What the text may go on with. -/
inductive Expecting where
  /-- A value. -/
  | value (frames : List Frame)
  /-- The first item of a list, or its end. -/
  | firstItem (frames : List Frame)
  /-- A comma, or the end of the list. -/
  | nextItem (items : List Draft) (frames : List Frame)
  /-- The first key of an object, or its end. -/
  | firstKey (frames : List Frame)
  /-- A key. -/
  | nextKey (members : List (Option String × Draft)) (frames : List Frame)
  /-- The colon after a key. -/
  | colon (members : List (Option String × Draft)) (key : Option String) (frames : List Frame)
  /-- A comma, or the end of the object. -/
  | nextMember (members : List (Option String × Draft)) (frames : List Frame)
  /-- Nothing: the root is complete. -/
  | done (root : Draft)
  /-- Nothing: the text went wrong. -/
  | broken (root : Draft)

namespace Expecting

/-- Gives a complete value to the container that waits for it. -/
def give (value : Draft) : List Frame → Expecting
  | [] => done value
  | .arr items :: frames => nextItem (value :: items) frames
  | .obj members key :: frames => nextMember ((key, value) :: members) frames

/-- The root when the text ends inside `value`: no container around it is closed. -/
def unwind (value : Draft) : List Frame → Draft
  | [] => value
  | .arr items :: frames => unwind (.arr (value :: items).reverse false) frames
  | .obj members key :: frames => unwind (.obj ((key, value) :: members).reverse false) frames

/-- The root when the text goes wrong here. -/
def interrupt : Expecting → Draft
  | value frames => unwind .cut frames
  | firstItem frames => unwind (.arr [] false) frames
  | nextItem items frames => unwind (.arr items.reverse false) frames
  | firstKey frames => unwind (.obj [] false) frames
  | nextKey members frames => unwind (.obj members.reverse false) frames
  | colon members key frames => unwind (.obj ((key, .cut) :: members).reverse false) frames
  | nextMember members frames => unwind (.obj members.reverse false) frames
  | done root => root
  | broken root => root

/-- A token that begins a value. -/
def openValue (frames : List Frame) : Token → Option Expecting
  | .null => some (give .null frames)
  | .bool b => some (give (.bool b) frames)
  | .num numeral => some (give (.num numeral) frames)
  | .str text => some (give (.str text) frames)
  | .leftBracket => some (firstItem frames)
  | .leftBrace => some (firstKey frames)
  | _ => none

/-- What the text may go on with after a token; none if the token cannot stand here. -/
def next? : Expecting → Token → Option Expecting
  | value frames, token => openValue frames token
  | firstItem frames, .rightBracket => some (give (.arr [] true) frames)
  | firstItem frames, token => openValue (.arr [] :: frames) token
  | nextItem items frames, .comma => some (value (.arr items :: frames))
  | nextItem items frames, .rightBracket => some (give (.arr items.reverse true) frames)
  | firstKey frames, .str text => some (colon [] text frames)
  | firstKey frames, .rightBrace => some (give (.obj [] true) frames)
  | nextKey members frames, .str text => some (colon members text frames)
  | colon members key frames, .colon => some (value (.obj members key :: frames))
  | nextMember members frames, .comma => some (nextKey members frames)
  | nextMember members frames, .rightBrace => some (give (.obj members.reverse true) frames)
  | _, _ => none

/-- Reads one token. -/
def step (expecting : Expecting) (token : Token) : Expecting :=
  (expecting.next? token).getD (broken expecting.interrupt)

end Expecting

/-- A scanned text: its draft, and whether nothing follows a complete root. -/
structure Scan where
  root : Draft
  ended : Bool

namespace Scan

/-- The scan of a sequence of tokens. -/
def ofTokens (tokens : List Token) : Scan :=
  match tokens.foldl Expecting.step (.value []) with
  | .done root => ⟨root, true⟩
  | expecting => ⟨expecting.interrupt, false⟩

/-- The scan of a text. -/
def ofText (text : String) : Scan :=
  ofTokens (Token.scan text.toList)

end Scan

/-- The containers that a text may have open at once. -/
def maxDepth : Nat := 127

namespace Draft

mutual

/-- The value of a draft, with room for `room` containers inside each other. -/
def value? (room : Nat) : Draft → Option Json
  | null => some .null
  | bool b => some (.bool b)
  | num numeral => numeral.toNumber?.map .num
  | str text => text.map .str
  | arr items closed =>
    match room with
    | 0 => none
    | room + 1 => if closed then (values? room items).map .arr else none
  | obj members closed =>
    match room with
    | 0 => none
    | room + 1 => if closed then (memberValues? room members).map .obj else none
  | cut => none

/-- The values of all drafts of a list. -/
def values? (room : Nat) : List Draft → Option (List Json)
  | [] => some []
  | item :: items =>
    match value? room item with
    | none => none
    | some value => (values? room items).map (value :: ·)

/-- The keys and values of all members of a list. -/
def memberValues? (room : Nat) : List (Option String × Draft) → Option (List (String × Json))
  | [] => some []
  | (key, member) :: members =>
    match key, value? room member with
    | some key, some value => (memberValues? room members).map ((key, value) :: ·)
    | _, _ => none

end

end Draft

/-- The value of a JSON text, if it is well formed. -/
def parse? (text : String) : Option Json :=
  let scan := Scan.ofText text
  if scan.ended then scan.root.value? maxDepth else none

end AbiRecovery.Json
