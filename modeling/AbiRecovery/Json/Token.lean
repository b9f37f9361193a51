import AbiRecovery.Json.Number
import AbiRecovery.Text.Digit

/-!
# Tokens of a JSON text

The lexer is one step function on characters. It never looks ahead: a numeral ends at the first
character that cannot continue it, and that character starts the next token. At the first character
that no token allows it writes `Token.bad` and ignores the rest.

A string token holds no text when it has an escape for half of a surrogate pair without the other
half: such a string may be skipped but not read.
-/

namespace AbiRecovery.Json

/-- A token of a JSON text. -/
inductive Token where
  | leftBracket
  | rightBracket
  | leftBrace
  | rightBrace
  | comma
  | colon
  | null
  | bool (value : Bool)
  | num (numeral : Numeral)
  | str (text : Option String)
  | bad

/-- A string that is being read. -/
structure Quote where
  /-- The characters so far, newest first. -/
  characters : List Char := []
  /-- Whether every surrogate so far has its other half. -/
  paired : Bool := true
  /-- A high surrogate whose low half has to come next. -/
  high : Option Nat := none

namespace Quote

/-- Adds a character. -/
def push (quote : Quote) (c : Char) : Quote :=
  { characters := c :: quote.characters
    paired := quote.paired && quote.high.isNone
    high := none }

/-- Adds a code unit that was written as four hexadecimal digits. -/
def pushUnit (quote : Quote) (unit : Nat) : Quote :=
  if 0xD800 ≤ unit ∧ unit < 0xDC00 then
    { quote with paired := quote.paired && quote.high.isNone, high := some unit }
  else if 0xDC00 ≤ unit ∧ unit < 0xE000 then
    match quote.high with
    | some high =>
      let c := Char.ofNat (0x10000 + (high - 0xD800) * 0x400 + (unit - 0xDC00))
      { quote with characters := c :: quote.characters, high := none }
    | none => { quote with paired := false }
  else quote.push (Char.ofNat unit)

/-- The text, if every surrogate has its other half. -/
def text? (quote : Quote) : Option String :=
  if quote.paired && quote.high.isNone then some (String.ofList quote.characters.reverse) else none

end Quote

/-- What the lexer is in the middle of. A numeral that is being read has its digits newest first. -/
inductive LexerMode where
  | between
  | word (rest : List Char) (token : Token)
  | quote (quote : Quote)
  | escape (quote : Quote)
  | hex (quote : Quote) (value : Nat) (missing : Nat)
  | minus
  | zero (numeral : Numeral)
  | whole (numeral : Numeral)
  | point (numeral : Numeral)
  | fraction (numeral : Numeral)
  | mark (numeral : Numeral)
  | sign (numeral : Numeral) (negative : Bool)
  | exponent (numeral : Numeral) (part : Exponent)
  | failed

/-- The lexer: its mode and the tokens so far, newest first. -/
structure Lexer where
  mode : LexerMode := .between
  tokens : List Token := []

/-- The character that a backslash and `c` stand for. -/
def unescape? : Char → Option Char
  | '"' => some '"'
  | '\\' => some '\\'
  | '/' => some '/'
  | 'b' => some '\x08'
  | 'f' => some '\x0c'
  | 'n' => some '\n'
  | 'r' => some '\r'
  | 't' => some '\t'
  | _ => none

namespace Lexer

/-- Adds a token and goes on between tokens. -/
def emit (lexer : Lexer) (token : Token) : Lexer :=
  { mode := .between, tokens := token :: lexer.tokens }

/-- Gives up at a character that no token allows. -/
def fail (lexer : Lexer) : Lexer :=
  { mode := .failed, tokens := .bad :: lexer.tokens }

/-- Goes on in another mode. -/
def enter (lexer : Lexer) (mode : LexerMode) : Lexer :=
  { lexer with mode := mode }

/-- Reads a character between tokens. -/
def start (lexer : Lexer) (c : Char) : Lexer :=
  match c with
  | ' ' | '\n' | '\t' | '\r' => lexer.enter .between
  | '[' => lexer.emit .leftBracket
  | ']' => lexer.emit .rightBracket
  | '\x7b' => lexer.emit .leftBrace
  | '\x7d' => lexer.emit .rightBrace
  | ',' => lexer.emit .comma
  | ':' => lexer.emit .colon
  | '"' => lexer.enter (.quote { })
  | '-' => lexer.enter .minus
  | '0' => lexer.enter (.zero { whole := [0] })
  | 'n' => lexer.enter (.word ['u', 'l', 'l'] .null)
  | 't' => lexer.enter (.word ['r', 'u', 'e'] (.bool true))
  | 'f' => lexer.enter (.word ['a', 'l', 's', 'e'] (.bool false))
  | c =>
    match Text.digit? 10 c with
    | some digit => lexer.enter (.whole { whole := [digit] })
    | none => lexer.fail

/-- Adds a numeral that was read to its end. -/
def emitNumeral (lexer : Lexer) (numeral : Numeral) : Lexer :=
  lexer.emit (.num numeral.reverse)

/-- Ends a numeral at a character that does not continue it. -/
def finishNumeral (lexer : Lexer) (numeral : Numeral) (c : Char) : Lexer :=
  (lexer.emitNumeral numeral).start c

/-- Reads a character after the whole digits of a numeral. -/
def afterWhole (lexer : Lexer) (numeral : Numeral) (c : Char) : Lexer :=
  if c = '.' then lexer.enter (.point numeral)
  else if c = 'e' ∨ c = 'E' then lexer.enter (.mark numeral)
  else lexer.finishNumeral numeral c

/-- Reads one character. -/
def step (lexer : Lexer) (c : Char) : Lexer :=
  match lexer.mode with
  | .between => lexer.start c
  | .word rest token =>
    match rest with
    | [last] => if c = last then lexer.emit token else lexer.fail
    | next :: rest => if c = next then lexer.enter (.word rest token) else lexer.fail
    | [] => lexer.fail
  | .quote quote =>
    if c = '"' then lexer.emit (.str quote.text?)
    else if c = '\\' then lexer.enter (.escape quote)
    else if c < ' ' then lexer.fail
    else lexer.enter (.quote (quote.push c))
  | .escape quote =>
    if c = 'u' then lexer.enter (.hex quote 0 3)
    else
      match unescape? c with
      | some plain => lexer.enter (.quote (quote.push plain))
      | none => lexer.fail
  | .hex quote value missing =>
    match Text.digit? 16 c, missing with
    | some digit, 0 => lexer.enter (.quote (quote.pushUnit (16 * value + digit)))
    | some digit, missing + 1 => lexer.enter (.hex quote (16 * value + digit) missing)
    | none, _ => lexer.fail
  | .minus =>
    match Text.digit? 10 c with
    | some 0 => lexer.enter (.zero { negative := true, whole := [0] })
    | some digit => lexer.enter (.whole { negative := true, whole := [digit] })
    | none => lexer.fail
  | .zero numeral =>
    match Text.digit? 10 c with
    | some _ => lexer.fail
    | none => lexer.afterWhole numeral c
  | .whole numeral =>
    match Text.digit? 10 c with
    | some digit => lexer.enter (.whole { numeral with whole := digit :: numeral.whole })
    | none => lexer.afterWhole numeral c
  | .point numeral =>
    match Text.digit? 10 c with
    | some digit => lexer.enter (.fraction { numeral with fraction := [digit] })
    | none => lexer.fail
  | .fraction numeral =>
    match Text.digit? 10 c with
    | some digit => lexer.enter (.fraction { numeral with fraction := digit :: numeral.fraction })
    | none =>
      if c = 'e' ∨ c = 'E' then lexer.enter (.mark numeral) else lexer.finishNumeral numeral c
  | .mark numeral =>
    if c = '+' then lexer.enter (.sign numeral false)
    else if c = '-' then lexer.enter (.sign numeral true)
    else
      match Text.digit? 10 c with
      | some digit => lexer.enter (.exponent numeral ⟨false, [digit]⟩)
      | none => lexer.fail
  | .sign numeral negative =>
    match Text.digit? 10 c with
    | some digit => lexer.enter (.exponent numeral ⟨negative, [digit]⟩)
    | none => lexer.fail
  | .exponent numeral part =>
    match Text.digit? 10 c with
    | some digit => lexer.enter (.exponent numeral { part with digits := digit :: part.digits })
    | none => lexer.finishNumeral { numeral with exponent := some part } c
  | .failed => lexer

/-- Ends the text: a complete numeral counts, any other token cut short is bad. -/
def finish (lexer : Lexer) : Lexer :=
  match lexer.mode with
  | .between | .failed => lexer
  | .zero numeral | .whole numeral | .fraction numeral => lexer.emitNumeral numeral
  | .exponent numeral part => lexer.emitNumeral { numeral with exponent := some part }
  | _ => lexer.fail

end Lexer

/-- The tokens of a text, up to the first character that no token allows. -/
def Token.scan (text : List Char) : List Token :=
  (text.foldl Lexer.step { }).finish.tokens.reverse

end AbiRecovery.Json
