import SmoothedParticles.Json.Number

/-!
# Tokens of JSON

A text is cut into tokens by an automaton that reads one character at a time.

* `Lexer.step`: one character.
* `Token.ofString?`: the tokens of a text.
-/

namespace SmoothedParticles.Json

/-- A piece of a text. -/
inductive Token
  | mark (c : Char)
  | word (s : String)
  | number (n : NumberLiteral)
  | text (s : String)
  deriving DecidableEq, Repr

/-- What the automaton is in the middle of. Characters of a piece are kept in reverse. -/
inductive Lexer.Piece
  | none
  | word (cs : List Char)
  | number (cs : List Char)
  | text (cs : List Char)
  /-- After a backslash in a text. -/
  | escape (cs : List Char)
  /-- In the four digits of a code unit; the first unit of a pair is known already. -/
  | unit (cs : List Char) (high? : Option Nat) (count value : Nat)
  /-- After the first unit of a pair; the backslash of the second one is read or not. -/
  | pair (cs : List Char) (high : Nat) (backslash : Bool)

namespace Lexer

/-- The tokens so far, in reverse, and the piece that is being read. -/
structure State where
  tokens : List Token
  piece : Piece

/-- The value of a hexadecimal digit. -/
def hexDigit? (c : Char) : Option Nat :=
  if c.isDigit then some (c.toNat - '0'.toNat)
  else if 'a' ≤ c ∧ c ≤ 'f' then some (c.toNat - 'a'.toNat + 10)
  else if 'A' ≤ c ∧ c ≤ 'F' then some (c.toNat - 'A'.toNat + 10)
  else none

/-- The character behind a backslash and a letter. -/
def escaped? : Char → Option Char
  | '"' => some '"'
  | '\\' => some '\\'
  | '/' => some '/'
  | 'b' => some '\x08'
  | 'f' => some '\x0c'
  | 'n' => some '\n'
  | 'r' => some '\r'
  | 't' => some '\t'
  | _ => none

/-- Can the character be part of a number? -/
def isNumberChar (c : Char) : Bool :=
  c.isDigit || c = '-' || c = '+' || c = '.' || c = 'e' || c = 'E'

/-- The characters that are tokens by themselves. -/
def marks : List Char := ['[', ']', '{', '}', ':', ',']

/-- A character outside of all pieces. -/
def start (tokens : List Token) (c : Char) : Option State :=
  if c = ' ' ∨ c = '\t' ∨ c = '\n' ∨ c = '\r' then some ⟨tokens, .none⟩
  else if c = '"' then some ⟨tokens, .text []⟩
  else if c.isDigit ∨ c = '-' then some ⟨tokens, .number [c]⟩
  else if c.isLower then some ⟨tokens, .word [c]⟩
  else if marks.contains c then some ⟨.mark c :: tokens, .none⟩
  else none

/-- A complete code unit of four digits. A first unit of a pair needs a second one, which can
not stand alone. -/
def unit? (tokens : List Token) (cs : List Char) (high? : Option Nat) (value : Nat) :
    Option State :=
  let isHigh := 0xD800 ≤ value && value < 0xDC00
  let isLow := 0xDC00 ≤ value && value < 0xE000
  match high? with
  | none =>
    if isHigh then some ⟨tokens, .pair cs value false⟩
    else if isLow then none
    else some ⟨tokens, .text (Char.ofNat value :: cs)⟩
  | some high =>
    if isLow then
      let point := 0x10000 + (high - 0xD800) * 0x400 + (value - 0xDC00)
      some ⟨tokens, .text (Char.ofNat point :: cs)⟩
    else none

/-- **One character.** -/
def step (s : State) (c : Char) : Option State :=
  match s.piece with
  | .none => start s.tokens c
  | .word cs =>
    if c.isLower then some ⟨s.tokens, .word (c :: cs)⟩
    else start (.word (String.ofList cs.reverse) :: s.tokens) c
  | .number cs =>
    if isNumberChar c then some ⟨s.tokens, .number (c :: cs)⟩
    else do
      let n ← NumberLiteral.ofChars? cs.reverse
      start (.number n :: s.tokens) c
  | .text cs =>
    if c = '"' then some ⟨.text (String.ofList cs.reverse) :: s.tokens, .none⟩
    else if c = '\\' then some ⟨s.tokens, .escape cs⟩
    else if c < ' ' then none
    else some ⟨s.tokens, .text (c :: cs)⟩
  | .escape cs =>
    if c = 'u' then some ⟨s.tokens, .unit cs none 0 0⟩
    else (escaped? c).map fun e => ⟨s.tokens, .text (e :: cs)⟩
  | .unit cs high? count value => do
    let value := 16 * value + (← hexDigit? c)
    if count = 3 then unit? s.tokens cs high? value
    else some ⟨s.tokens, .unit cs high? (count + 1) value⟩
  | .pair cs high false => if c = '\\' then some ⟨s.tokens, .pair cs high true⟩ else none
  | .pair cs high true => if c = 'u' then some ⟨s.tokens, .unit cs (some high) 0 0⟩ else none

/-- The tokens at the end of a text, if no piece is left open. -/
def finish (s : State) : Option (List Token) :=
  match s.piece with
  | .none => some s.tokens.reverse
  | .word cs => some (.word (String.ofList cs.reverse) :: s.tokens).reverse
  | .number cs => (NumberLiteral.ofChars? cs.reverse).map fun n => (.number n :: s.tokens).reverse
  | _ => none

end Lexer

/-- **The tokens of a text.** -/
def Token.ofString? (s : String) : Option (List Token) :=
  (s.toList.foldlM Lexer.step ⟨[], .none⟩).bind Lexer.finish

end SmoothedParticles.Json
