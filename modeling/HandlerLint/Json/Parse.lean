import HandlerLint.Json.Token

/-!
# Reading JSON documents

A value is read from the tokens of a text.  A comma is always followed by a further item
or member, and nothing follows the value.
-/

namespace HandlerLint.Json

mutual

/-- A value and the tokens after it. -/
def value? : Nat → List Token → Option (Json × List Token)
  | 0, _ => none
  | steps + 1, tokens =>
      match tokens with
      | .null :: rest => some (.null, rest)
      | .bool value :: rest => some (.bool value, rest)
      | .number value :: rest => some (.number value, rest)
      | .string value :: rest => some (.string value, rest)
      | .leftBracket :: .rightBracket :: rest => some (.array [], rest)
      | .leftBracket :: rest => do
          let (items, rest) ← items? steps rest
          return (.array items, rest)
      | .leftBrace :: .rightBrace :: rest => some (.object [], rest)
      | .leftBrace :: rest => do
          let (members, rest) ← members? steps rest
          return (.object members, rest)
      | _ => none

/-- At least one item of an array, up to its end. -/
def items? : Nat → List Token → Option (List Json × List Token)
  | 0, _ => none
  | steps + 1, tokens => do
      let (item, rest) ← value? steps tokens
      match rest with
      | .rightBracket :: rest => return ([item], rest)
      | .comma :: rest => do
          let (items, rest) ← items? steps rest
          return (item :: items, rest)
      | _ => none

/-- At least one member of an object, up to its end. -/
def members? : Nat → List Token → Option (List (String × Json) × List Token)
  | 0, _ => none
  | steps + 1, tokens =>
      match tokens with
      | .string name :: .colon :: rest => do
          let (value, rest) ← value? steps rest
          match rest with
          | .rightBrace :: rest => return ([(name, value)], rest)
          | .comma :: rest => do
              let (members, rest) ← members? steps rest
              return ((name, value) :: members, rest)
          | _ => none
      | _ => none

end

/-- The value that some tokens make.  Every call but that for the first item of an array
takes a token. -/
def ofTokens? (tokens : List Token) : Option Json :=
  match value? (2 * tokens.length + 1) tokens with
  | some (value, []) => some value
  | _ => none

/-- The value that a text writes. -/
def parse? (text : String) : Option Json := do
  ofTokens? (← tokens? text.toList)

end HandlerLint.Json
