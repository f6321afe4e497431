import HandlerLint.Text.Hex

/-!
# JSON documents

JSON values and their text: two spaces of indentation for each level, one member on a
line, and nothing inside an empty array or object.  Numbers are natural numbers; no
document here holds others.
-/

namespace HandlerLint

/-- A JSON value. -/
inductive Json where
  | null
  | bool (value : Bool)
  | number (value : Nat)
  | string (value : String)
  | array (items : List Json)
  /-- The members of an object in the order in which they are written. -/
  | object (members : List (String × Json))

namespace Json

/-- How a character is written inside a string. -/
def escapeChar (c : Char) : List Char :=
  if c = '"' then ['\\', '"']
  else if c = '\\' then ['\\', '\\']
  else if c = '\x08' then ['\\', 'b']
  else if c = '\t' then ['\\', 't']
  else if c = '\n' then ['\\', 'n']
  else if c = '\x0c' then ['\\', 'f']
  else if c = '\r' then ['\\', 'r']
  else if c.toNat < 0x20 then
    ['\\', 'u', '0', '0', Text.hexDigit (c.toNat / 16), Text.hexDigit (c.toNat % 16)]
  else [c]

/-- A string between quotes. -/
def renderString (text : String) : List Char :=
  '"' :: text.toList.flatMap escapeChar ++ ['"']

/-- A line break and the indentation of a level. -/
def newline (level : Nat) : List Char :=
  '\n' :: List.replicate (2 * level) ' '

mutual

/-- The text of a value whose first line is already indented. -/
def renderAt (level : Nat) : Json → List Char
  | .null => "null".toList
  | .bool true => "true".toList
  | .bool false => "false".toList
  | .number value => Nat.toDigits 10 value
  | .string value => renderString value
  | .array [] => ['[', ']']
  | .array (item :: items) =>
      '[' :: newline (level + 1) ++ renderAt (level + 1) item ++
        renderItems (level + 1) items ++ newline level ++ [']']
  | .object [] => ['\x7b', '\x7d']
  | .object ((name, value) :: members) =>
      '\x7b' :: newline (level + 1) ++ renderString name ++ ':' :: ' ' ::
        renderAt (level + 1) value ++ renderMembers (level + 1) members ++
        newline level ++ ['\x7d']

/-- The text of the items after the first one. -/
def renderItems (level : Nat) : List Json → List Char
  | [] => []
  | item :: items =>
      ',' :: newline level ++ renderAt level item ++ renderItems level items

/-- The text of the members after the first one. -/
def renderMembers (level : Nat) : List (String × Json) → List Char
  | [] => []
  | (name, value) :: members =>
      ',' :: newline level ++ renderString name ++ ':' :: ' ' :: renderAt level value ++
        renderMembers level members

end

/-- The text of a document. -/
def render (json : Json) : String :=
  String.ofList (renderAt 0 json)

/-! ## Looking into documents -/

/-- The one member of an object with a given name.  A name that occurs twice is as bad
as one that does not occur. -/
def member? (name : String) : Json → Option Json
  | .object members =>
      match members.filter (·.1 == name) with
      | [(_, value)] => some value
      | _ => none
  | _ => none

/-- The member of an object with a given name, or a stand-in where the name does not
occur. -/
def memberOr? (name : String) (json absent : Json) : Option Json :=
  match json with
  | .object members =>
      match members.filter (·.1 == name) with
      | [] => some absent
      | [(_, value)] => some value
      | _ => none
  | _ => none

/-- The truth value of a value. -/
def bool? : Json → Option Bool
  | .bool value => some value
  | _ => none

/-- The number of a value. -/
def number? : Json → Option Nat
  | .number value => some value
  | _ => none

/-- The string of a value. -/
def string? : Json → Option String
  | .string value => some value
  | _ => none

/-- The items of a value. -/
def array? : Json → Option (List Json)
  | .array items => some items
  | _ => none

end Json

end HandlerLint
