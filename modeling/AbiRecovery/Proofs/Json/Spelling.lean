import AbiRecovery.Json.Field
import AbiRecovery.Json.Printer
import AbiRecovery.Json.Token
import Mathlib.Tactic.IntervalCases

/-!
# What the lexer reads in a printed value

A text *spells* a sequence of tokens if the lexer, started between two tokens, reads exactly them
(`Spells`). A numeral has no end of its own, so after a text that spells tokens the lexer may still
wait for the character that ends the last numeral (`Lexer.Settled`); a text that may stand there
*continues* with its tokens (`Continues`). The two notions chain (`Spells.append`,
`Spells.continues`), and every printed value is a chain of strings, numerals, words and marks.

`Json.tokens` are the tokens of a value. Both printers spell them: `spells_compactChars`,
`spells_prettyChars`. Numbers are restricted to those of a document, naturals of 64 bits (`Exact`).
-/

namespace AbiRecovery.Json

/-! ### Chaining texts -/

/-- The lexer has read the tokens `tokens`, newest first, but the last of them may be a numeral that
goes on. -/
inductive Lexer.Settled : Lexer → List Token → Prop
  | between (tokens : List Token) : Settled ⟨.between, tokens⟩ tokens
  | zero (numeral : Numeral) (tokens : List Token) :
    Settled ⟨.zero numeral, tokens⟩ (.num numeral.reverse :: tokens)
  | whole (numeral : Numeral) (tokens : List Token) :
    Settled ⟨.whole numeral, tokens⟩ (.num numeral.reverse :: tokens)

/-- A character that stands for the tokens `tokens` on its own and cannot continue a numeral. -/
structure Mark (c : Char) (tokens : List Token) : Prop where
  noDigit : Text.digit? 10 c = none
  noPart : c ≠ '.' ∧ c ≠ 'e' ∧ c ≠ 'E'
  start : ∀ before, Lexer.start ⟨.between, before⟩ c = ⟨.between, tokens.reverse ++ before⟩

/-- A mark ends whatever was read before it. -/
theorem Mark.step {c : Char} {tokens before : List Token} {lexer : Lexer} (hc : Mark c tokens)
    (h : lexer.Settled before) : lexer.step c = ⟨.between, tokens.reverse ++ before⟩ := by
  obtain ⟨hd, ⟨hp, he, hE⟩, hs⟩ := hc
  cases h with
  | between => exact hs before
  | zero numeral rest =>
    simp only [Lexer.step, hd, Lexer.afterWhole, hp, he, hE, or_self, if_false]
    exact hs _
  | whole numeral rest =>
    simp only [Lexer.step, hd, Lexer.afterWhole, hp, he, hE, or_self, if_false]
    exact hs _

theorem mark_blank : Mark ' ' [] := ⟨by decide, by decide, fun _ => rfl⟩
theorem mark_newline : Mark '\n' [] := ⟨by decide, by decide, fun _ => rfl⟩
theorem mark_comma : Mark ',' [.comma] := ⟨by decide, by decide, fun _ => rfl⟩
theorem mark_colon : Mark ':' [.colon] := ⟨by decide, by decide, fun _ => rfl⟩
theorem mark_leftBracket : Mark '[' [.leftBracket] := ⟨by decide, by decide, fun _ => rfl⟩
theorem mark_rightBracket : Mark ']' [.rightBracket] := ⟨by decide, by decide, fun _ => rfl⟩
theorem mark_leftBrace : Mark '\x7b' [.leftBrace] := ⟨by decide, by decide, fun _ => rfl⟩
theorem mark_rightBrace : Mark '\x7d' [.rightBrace] := ⟨by decide, by decide, fun _ => rfl⟩

/-- **Spelling**: started between two tokens, the lexer reads exactly `tokens`. -/
def Spells (text : List Char) (tokens : List Token) : Prop :=
  ∀ before, (text.foldl Lexer.step ⟨.between, before⟩).Settled (tokens.reverse ++ before)

/-- The same after any tokens, also after a numeral. -/
def Continues (text : List Char) (tokens : List Token) : Prop :=
  ∀ lexer before, lexer.Settled before →
    (text.foldl Lexer.step lexer).Settled (tokens.reverse ++ before)

theorem Continues.spells {text : List Char} {tokens : List Token} (h : Continues text tokens) :
    Spells text tokens :=
  fun before => h _ _ (.between before)

theorem spells_nil : Spells [] [] := fun before => .between before

theorem Spells.append {text rest : List Char} {tokens more : List Token} (h : Spells text tokens)
    (hr : Continues rest more) : Spells (text ++ rest) (tokens ++ more) := by
  intro before
  rw [List.foldl_append, List.reverse_append, List.append_assoc]
  exact hr _ _ (h before)

theorem Spells.continues {c : Char} {text : List Char} {tokens more : List Token}
    (hc : Mark c tokens) (h : Spells text more) : Continues (c :: text) (tokens ++ more) := by
  intro lexer before hl
  rw [List.foldl_cons, hc.step hl, List.reverse_append, List.append_assoc]
  exact h _

theorem Mark.continues {c : Char} {tokens : List Token} (hc : Mark c tokens) :
    Continues [c] tokens := by
  simpa using spells_nil.continues hc

theorem Spells.blanks {text : List Char} {tokens : List Token} (h : Spells text tokens)
    (count : ℕ) : Spells (List.replicate count ' ' ++ text) tokens := by
  induction count with
  | zero => exact h
  | succ count ih => exact (ih.continues mark_blank).spells

theorem Spells.newline {text : List Char} {tokens : List Token} (h : Spells text tokens)
    (level : ℕ) : Continues (newline level ++ text) tokens :=
  (h.blanks (2 * level)).continues mark_newline

theorem Spells.scan_eq {text : List Char} {tokens : List Token} (h : Spells text tokens) :
    Token.scan text = tokens := by
  have hs := h []
  have hf : ∀ {lexer : Lexer} {read : List Token}, lexer.Settled read →
      lexer.finish.tokens = read := by
    intro lexer read hl
    cases hl <;> rfl
  unfold Token.scan
  rw [hf hs, List.append_nil, List.reverse_reverse]

/-! ### Strings -/

/-- A string that is being read and has no open surrogate. -/
def Quote.ofChars (characters : List Char) : Quote := { characters := characters }

theorem Quote.pushUnit_of_lt (characters : List Char) {c : Char} (hc : c.toNat < 0xD800) :
    (ofChars characters).pushUnit c.toNat = ofChars (c :: characters) := by
  unfold pushUnit
  rw [if_neg (by omega), if_neg (by omega), Char.ofNat_toNat]
  rfl

theorem digit?_hexDigit (value : ℕ) : Text.digit? 16 (hexDigit value) = some (value % 16) := by
  have h : ∀ digit < 16, Text.digit? 16 (Nat.digitChar digit) = some digit := by decide
  exact h _ (Nat.mod_lt _ (by omega))

theorem foldl_step_control (before : List Token) (characters : List Char) {c : Char}
    (hc : c < ' ') :
    ['\\', 'u', '0', '0', hexDigit (c.toNat / 16), hexDigit c.toNat].foldl Lexer.step
        ⟨.quote (Quote.ofChars characters), before⟩ =
      ⟨.quote (Quote.ofChars (c :: characters)), before⟩ := by
  have hlt : c.toNat < 32 := hc
  have hzero : Text.digit? 16 '0' = some 0 := by decide
  have hvalue :
      16 * (16 * (16 * (16 * 0 + 0) + 0) + c.toNat / 16 % 16) + c.toNat % 16 = c.toNat := by
    omega
  have hesc : ∀ quote : Quote, Lexer.step ⟨.quote quote, before⟩ '\\' = ⟨.escape quote, before⟩ :=
    fun _ => rfl
  have hu : ∀ quote : Quote, Lexer.step ⟨.escape quote, before⟩ 'u' = ⟨.hex quote 0 3, before⟩ :=
    fun _ => rfl
  simp only [List.foldl_cons, List.foldl_nil, hesc, hu]
  simp only [Lexer.step, hzero, digit?_hexDigit, Lexer.enter, hvalue]
  rw [Quote.pushUnit_of_lt _ (by omega)]

/-- Inside a string the lexer reads a written character as the character itself. -/
theorem foldl_step_escapeChar (before : List Token) (characters : List Char) (c : Char) :
    (escapeChar c).foldl Lexer.step ⟨.quote (Quote.ofChars characters), before⟩ =
      ⟨.quote (Quote.ofChars (c :: characters)), before⟩ := by
  unfold escapeChar
  split
  -- the seven short escapes
  iterate 7 rfl
  rename_i hquote hback _ _ _ _ _
  split_ifs with hc
  · exact foldl_step_control before characters hc
  · simp only [List.foldl_cons, List.foldl_nil, Lexer.step]
    rw [if_neg hquote, if_neg hback, if_neg hc]
    rfl

theorem foldl_step_flatMap_escapeChar (before : List Token) (text characters : List Char) :
    (text.flatMap escapeChar).foldl Lexer.step ⟨.quote (Quote.ofChars characters), before⟩ =
      ⟨.quote (Quote.ofChars (text.reverse ++ characters)), before⟩ := by
  induction text generalizing characters with
  | nil => rfl
  | cons c text ih =>
    rw [List.flatMap_cons, List.foldl_append, foldl_step_escapeChar, ih, List.reverse_cons,
      List.append_assoc]
    rfl

/-- **Strings**: whatever its characters, a quoted text is one token that holds the text. -/
theorem spells_quoteChars (text : String) : Spells (quoteChars text) [.str (some text)] := by
  intro before
  have hopen : Lexer.step ⟨.between, before⟩ '"' = ⟨.quote (Quote.ofChars []), before⟩ := rfl
  have htext : (Quote.ofChars text.toList.reverse).text? = some text := by
    simp [Quote.text?, Quote.ofChars]
  unfold quoteChars
  rw [List.cons_append, List.foldl_cons, hopen, List.foldl_append, foldl_step_flatMap_escapeChar,
    List.append_nil]
  simp only [List.foldl_cons, List.foldl_nil, Lexer.step, if_true, htext]
  exact .between _

/-! ### Numerals -/

/-- The numeral of a natural number. -/
def Numeral.ofNat (value : ℕ) : Numeral :=
  { whole := (Nat.toDigits 10 value).map fun c => c.toNat - '0'.toNat }

theorem Numeral.reverse_reverse_whole (digits : List ℕ) :
    Numeral.reverse { whole := digits.reverse } = { whole := digits } := by
  simp [Numeral.reverse]

theorem digit?_digitChar {digit : ℕ} (h : digit < 10) :
    Text.digit? 10 (Nat.digitChar digit) = some digit := by
  have hall : ∀ digit < 10, Text.digit? 10 (Nat.digitChar digit) = some digit := by decide
  exact hall digit h

theorem step_between_digitChar (before : List Token) {digit : ℕ} (hpos : 0 < digit)
    (h : digit < 10) :
    Lexer.step ⟨.between, before⟩ (Nat.digitChar digit) =
      ⟨.whole { whole := [digit] }, before⟩ := by
  interval_cases digit <;> rfl

theorem step_whole_digitChar (before : List Token) (digits : List ℕ) {digit : ℕ} (h : digit < 10) :
    Lexer.step ⟨.whole { whole := digits }, before⟩ (Nat.digitChar digit) =
      ⟨.whole { whole := digit :: digits }, before⟩ := by
  simp only [Lexer.step, digit?_digitChar h]
  rfl

theorem foldl_step_toDigits (before : List Token) {value : ℕ} (hpos : 0 < value) :
    (Nat.toDigits 10 value).foldl Lexer.step ⟨.between, before⟩ =
      ⟨.whole { whole := (Numeral.ofNat value).whole.reverse }, before⟩ := by
  unfold Numeral.ofNat
  induction value using Nat.base_induction 10 (by omega) with
  | single digit h =>
    rw [Nat.toDigits_of_lt_base h]
    simp only [List.foldl_cons, List.foldl_nil, step_between_digitChar before hpos h, List.map_cons,
      List.map_nil, List.reverse_singleton, Nat.toNat_digitChar_of_lt_ten h]
    simp
  | digit value digit h hvalue ih =>
    rw [← Nat.toDigits_append_toDigits (by omega) hvalue h, List.foldl_append, ih hvalue,
      Nat.toDigits_of_lt_base h]
    simp only [List.foldl_cons, List.foldl_nil, step_whole_digitChar _ _ h, List.map_append,
      List.map_cons, List.map_nil, List.reverse_append, List.reverse_singleton,
      Nat.toNat_digitChar_of_lt_ten h]
    simp

/-- **Numerals**: the digits of a number are one token. -/
theorem spells_toDigits (value : ℕ) :
    Spells (Nat.toDigits 10 value) [.num (Numeral.ofNat value)] := by
  intro before
  rcases Nat.eq_zero_or_pos value with rfl | hpos
  · exact .zero { whole := [0] } before
  · have h := Lexer.Settled.whole { whole := (Numeral.ofNat value).whole.reverse } before
    rw [Numeral.reverse_reverse_whole] at h
    rw [foldl_step_toDigits before hpos]
    exact h

theorem toNumber?_ofNat (code : UInt64) :
    (Numeral.ofNat code.toNat).toNumber? = some (.int code.toNat) := by
  have hdigits : Numeral.ofDigits (Numeral.ofNat code.toNat).whole = code.toNat := by
    simp only [Numeral.ofDigits, Numeral.ofNat, List.foldl_map]
    exact Nat.ofDigitChars_ten_toDigits
  have hlt : code.toNat < UInt64.size := code.toNat_lt_size
  have hint : (Numeral.ofNat code.toNat).toInt? = some (code.toNat : ℤ) := by
    unfold Numeral.toInt?
    rw [if_pos ⟨rfl, rfl⟩, hdigits]
    simp only [Numeral.ofNat, Bool.false_eq_true, if_false, if_pos hlt]
  unfold Numeral.toNumber?
  rw [hint]

/-! ### Values -/

/-- The numeral of an integer; a double has none. -/
def Number.numeral : Number → Numeral
  | int value => Numeral.ofNat value.toNat
  | float _ => { }

mutual

/-- The tokens of a value. -/
def tokens : Json → List Token
  | null => [.null]
  | bool value => [.bool value]
  | num value => [.num value.numeral]
  | str text => [.str (some text)]
  | arr items => .leftBracket :: (itemTokens items ++ [.rightBracket])
  | obj members => .leftBrace :: (memberTokens members ++ [.rightBrace])

/-- The tokens of the items of a list. -/
def itemTokens : List Json → List Token
  | [] => []
  | [item] => tokens item
  | item :: items => tokens item ++ .comma :: itemTokens items

/-- The tokens of the members of an object. -/
def memberTokens : List (String × Json) → List Token
  | [] => []
  | [(key, value)] => .str (some key) :: .colon :: tokens value
  | (key, value) :: members =>
    .str (some key) :: .colon :: (tokens value ++ .comma :: memberTokens members)

end

mutual

/-- Every number of a value is a natural number of 64 bits. -/
def Exact : Json → Prop
  | num value => ∃ code : UInt64, value = .int code.toNat
  | arr items => ItemsExact items
  | obj members => MembersExact members
  | _ => True

/-- Every number in the items of a list is a natural number of 64 bits. -/
def ItemsExact : List Json → Prop
  | [] => True
  | item :: items => item.Exact ∧ ItemsExact items

/-- Every number in the members of an object is a natural number of 64 bits. -/
def MembersExact : List (String × Json) → Prop
  | [] => True
  | (_, value) :: members => value.Exact ∧ MembersExact members

end

theorem spells_null : Spells ['n', 'u', 'l', 'l'] [.null] := fun _ => .between _

theorem spells_true : Spells ['t', 'r', 'u', 'e'] [.bool true] := fun _ => .between _

theorem spells_false : Spells ['f', 'a', 'l', 's', 'e'] [.bool false] := fun _ => .between _

theorem spells_numberText {value : Number} (h : ∃ code : UInt64, value = .int code.toNat) :
    Spells value.text.toList [.num value.numeral] := by
  obtain ⟨code, rfl⟩ := h
  have htext : (Number.int code.toNat).text.toList = Nat.toDigits 10 code.toNat := by
    simp [Number.text, Int.repr_eq_if]
  rw [htext]
  exact spells_toDigits code.toNat

theorem spells_member (key : String) {text : List Char} {tokens : List Token}
    (h : Spells text tokens) :
    Spells (quoteChars key ++ ':' :: text) (.str (some key) :: .colon :: tokens) :=
  (spells_quoteChars key).append (h.continues mark_colon)

mutual

/-- **The compact printer** spells the tokens of a value. -/
theorem spells_compactChars : ∀ value : Json, value.Exact → Spells value.compactChars value.tokens
  | null, _ => by
    rw [compactChars, tokens]
    exact spells_null
  | bool true, _ => by
    rw [compactChars, tokens]
    exact spells_true
  | bool false, _ => by
    rw [compactChars, tokens]
    exact spells_false
  | num value, h => by
    rw [Exact] at h
    rw [compactChars, tokens]
    exact spells_numberText h
  | str text, _ => by
    rw [compactChars, tokens]
    exact spells_quoteChars text
  | arr items, h => by
    rw [Exact] at h
    rw [compactChars, tokens]
    exact (((spells_compactItems items h).append mark_rightBracket.continues).continues
      mark_leftBracket).spells
  | obj members, h => by
    rw [Exact] at h
    rw [compactChars, tokens]
    exact (((spells_compactMembers members h).append mark_rightBrace.continues).continues
      mark_leftBrace).spells

theorem spells_compactItems : ∀ items : List Json, ItemsExact items →
    Spells (compactItems items) (itemTokens items)
  | [], _ => by
    rw [compactItems, itemTokens]
    exact spells_nil
  | [item], h => by
    rw [ItemsExact] at h
    rw [compactItems, itemTokens]
    exact spells_compactChars item h.1
  | item :: next :: items, h => by
    rw [ItemsExact] at h
    rw [compactItems, itemTokens]
    · exact (spells_compactChars item h.1).append
        ((spells_compactItems (next :: items) h.2).continues mark_comma)
    · simp
    · simp

theorem spells_compactMembers : ∀ members : List (String × Json), MembersExact members →
    Spells (compactMembers members) (memberTokens members)
  | [], _ => by
    rw [compactMembers, memberTokens]
    exact spells_nil
  | [(key, value)], h => by
    rw [MembersExact] at h
    rw [compactMembers, memberTokens]
    exact spells_member key (spells_compactChars value h.1)
  | (key, value) :: next :: members, h => by
    rw [MembersExact] at h
    rw [compactMembers, memberTokens, List.append_assoc]
    · exact spells_member key ((spells_compactChars value h.1).append
        ((spells_compactMembers (next :: members) h.2).continues mark_comma))
    · simp
    · simp

end

mutual

/-- **The indenting printer** spells the same tokens at every level. -/
theorem spells_prettyChars : ∀ (level : ℕ) (value : Json), value.Exact →
    Spells (value.prettyChars level) value.tokens
  | level, null, _ => by
    rw [prettyChars, tokens]
    exact spells_null
  | level, bool true, _ => by
    rw [prettyChars, tokens]
    exact spells_true
  | level, bool false, _ => by
    rw [prettyChars, tokens]
    exact spells_false
  | level, num value, h => by
    rw [Exact] at h
    rw [prettyChars, tokens]
    exact spells_numberText h
  | level, str text, _ => by
    rw [prettyChars, tokens]
    exact spells_quoteChars text
  | level, arr [], _ => by
    rw [prettyChars, tokens, itemTokens]
    exact (mark_rightBracket.continues.spells.continues mark_leftBracket).spells
  | level, arr (item :: items), h => by
    rw [Exact] at h
    rw [prettyChars, tokens, List.cons_append, List.cons_append, List.append_assoc]
    exact (((spells_prettyItems (level + 1) (item :: items) h).append
      (mark_rightBracket.continues.spells.newline level)).continues mark_leftBracket).spells
  | level, obj [], _ => by
    rw [prettyChars, tokens, memberTokens]
    exact (mark_rightBrace.continues.spells.continues mark_leftBrace).spells
  | level, obj (member :: members), h => by
    rw [Exact] at h
    rw [prettyChars, tokens, List.cons_append, List.cons_append, List.append_assoc]
    exact (((spells_prettyMembers (level + 1) (member :: members) h).append
      (mark_rightBrace.continues.spells.newline level)).continues mark_leftBrace).spells

theorem spells_prettyItems : ∀ (level : ℕ) (items : List Json), ItemsExact items →
    Spells (prettyItems level items) (itemTokens items)
  | level, [], _ => by
    rw [prettyItems, itemTokens]
    exact spells_nil
  | level, [item], h => by
    rw [ItemsExact] at h
    rw [prettyItems, itemTokens]
    exact ((spells_prettyChars level item h.1).newline level).spells
  | level, item :: next :: items, h => by
    rw [ItemsExact] at h
    rw [prettyItems, itemTokens, List.append_assoc]
    · exact (((spells_prettyChars level item h.1).append
        ((spells_prettyItems level (next :: items) h.2).continues mark_comma)).newline level).spells
    · simp
    · simp

theorem spells_prettyMembers : ∀ (level : ℕ) (members : List (String × Json)),
    MembersExact members → Spells (prettyMembers level members) (memberTokens members)
  | level, [], _ => by
    rw [prettyMembers, memberTokens]
    exact spells_nil
  | level, [(key, value)], h => by
    rw [MembersExact] at h
    rw [prettyMembers, memberTokens, List.append_assoc]
    have hvalue := ((spells_prettyChars level value h.1).continues mark_blank).spells
    exact ((spells_member key hvalue).newline level).spells
  | level, (key, value) :: next :: members, h => by
    rw [MembersExact] at h
    rw [prettyMembers, memberTokens, List.append_assoc, List.append_assoc]
    · have hrest := (spells_prettyChars level value h.1).append
        ((spells_prettyMembers level (next :: members) h.2).continues mark_comma)
      exact ((spells_member key (hrest.continues mark_blank).spells).newline level).spells
    · simp
    · simp

end

end AbiRecovery.Json
