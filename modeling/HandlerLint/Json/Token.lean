import HandlerLint.Json.Basic

/-!
# JSON tokens

A JSON text is read in two steps: first as a list of tokens, which no longer depends on
how the text is laid out, and then as a value.

A string is read as a list of units.  An escaped code may be half of a character; two
halves are joined once the whole string has been read.
-/

namespace HandlerLint.Json

/-- A token of a JSON text. -/
inductive Token where
  | leftBracket
  | rightBracket
  | leftBrace
  | rightBrace
  | comma
  | colon
  | null
  | bool (value : Bool)
  | number (value : Nat)
  | string (value : String)
deriving DecidableEq, Repr

/-! ## Strings -/

/-- A unit of a string: a character that stands for itself, or an escaped code. -/
inductive StringUnit where
  | char (c : Char)
  | code (value : Nat)
deriving DecidableEq, Repr

/-- The character that an escape of one letter stands for. -/
def letterEscape? : Char → Option Char
  | '"' => some '"'
  | '\\' => some '\\'
  | '/' => some '/'
  | 'b' => some '\x08'
  | 'f' => some '\x0c'
  | 'n' => some '\n'
  | 'r' => some '\r'
  | 't' => some '\t'
  | _ => none

/-- The units of a string up to its closing quote, and the text after that. -/
def stringUnits? : List Char → Option (List StringUnit × List Char)
  | '"' :: rest => some ([], rest)
  | '\\' :: 'u' :: a :: b :: c :: d :: rest => do
      let code ← Text.hexNumber? [a, b, c, d]
      let (units, rest) ← stringUnits? rest
      return (.code code :: units, rest)
  | '\\' :: letter :: rest => do
      let denoted ← letterEscape? letter
      let (units, rest) ← stringUnits? rest
      return (.char denoted :: units, rest)
  | c :: rest =>
      if c = '\\' ∨ c.toNat < 0x20 then none
      else do
        let (units, rest) ← stringUnits? rest
        return (.char c :: units, rest)
  | [] => none

/-- The character that two halves make. -/
def joinHalves? (high low : Nat) : Option Char :=
  if 0xD800 ≤ high ∧ high < 0xDC00 ∧ 0xDC00 ≤ low ∧ low < 0xE000 then
    some (Char.ofNat (0x10000 + (high - 0xD800) * 0x400 + (low - 0xDC00)))
  else none

/-- The characters of some units.  A half that stands alone is none. -/
def unitsText? : List StringUnit → Option (List Char)
  | [] => some []
  | .char c :: units => (unitsText? units).map (c :: ·)
  | .code code :: units =>
      match Text.charOfCode? code with
      | some c => (unitsText? units).map (c :: ·)
      | none =>
          match units with
          | .code low :: units => do
              let c ← joinHalves? code low
              return c :: (← unitsText? units)
          | _ => none

/-- A string, from after its opening quote. -/
def stringToken? (text : List Char) : Option (Token × List Char) := do
  let (units, rest) ← stringUnits? text
  return (.string (String.ofList (← unitsText? units)), rest)

/-! ## Tokens -/

/-- The characters that may stand between tokens. -/
def isSpace (c : Char) : Bool :=
  c = ' ' || c = '\n' || c = '\t' || c = '\r'

/-- The number that some decimal digits write.  A number of several digits does not open
with a zero. -/
def decimal? (digits : List Char) : Option Nat :=
  match digits with
  | [] => none
  | '0' :: _ :: _ => none
  | _ => some (digits.foldl (fun n c => n * 10 + (c.toNat - '0'.toNat)) 0)

/-- The token that stands for itself. -/
def mark? : Char → Option Token
  | '[' => some .leftBracket
  | ']' => some .rightBracket
  | '\x7b' => some .leftBrace
  | '\x7d' => some .rightBrace
  | ',' => some .comma
  | ':' => some .colon
  | _ => none

/-- The token that a word stands for. -/
def word? (word : List Char) : Option Token :=
  if word = "null".toList then some .null
  else if word = "true".toList then some (.bool true)
  else if word = "false".toList then some (.bool false)
  else none

/-- The token at the beginning of a text, and the text after it. -/
def token? (text : List Char) : Option (Token × List Char) :=
  match text with
  | [] => none
  | '"' :: rest => stringToken? rest
  | c :: rest =>
      match mark? c with
      | some token => some (token, rest)
      | none =>
          if c.isDigit then
            (decimal? (text.takeWhile Char.isDigit)).map fun n =>
              (.number n, text.dropWhile Char.isDigit)
          else
            (word? (text.takeWhile Char.isAlpha)).map fun token =>
              (token, text.dropWhile Char.isAlpha)

/-- The tokens of a text, at most `steps` of them. -/
def tokensWithin? : Nat → List Char → Option (List Token)
  | steps, text =>
      match text.dropWhile isSpace, steps with
      | [], _ => some []
      | _, 0 => none
      | text, steps + 1 => do
          let (token, rest) ← token? text
          return token :: (← tokensWithin? steps rest)

/-- The tokens of a text.  Each takes at least one character. -/
def tokens? (text : List Char) : Option (List Token) :=
  tokensWithin? text.length text

end HandlerLint.Json
