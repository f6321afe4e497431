import HandlerLint.Text.Hex
import HandlerLint.Text.Utf8
import HandlerLint.Yaml.Cursor

/-!
# YAML tags

A tag is a string of octets.  It is written with ASCII characters, and other octets as
percent signs with two digits.  Escaped octets come in groups as long as the first of
them asks for in UTF-8, but what a group denotes need not be a character.

A tag ends before its first zero octet: what is written after it does not count.
-/

namespace HandlerLint.Yaml

/-- A tag of a node, as octets. -/
abbrev Tag : Type :=
  List UInt8

namespace Tag

/-- The tag that a text spells. -/
def ofText (text : String) : Tag :=
  Text.encode text

/-- The part of some octets that counts as a tag. -/
def untilZero (octets : List UInt8) : Tag :=
  octets.takeWhile (· != 0)

/-- The octet of an exclamation mark. -/
def mark : UInt8 :=
  0x21

/-- The tag that is a lone exclamation mark. -/
def lone : Tag :=
  [mark]

/-- The name in a local tag, which opens with an exclamation mark.  Octets that are no
text are no name. -/
def localName? : Tag → Option String
  | [] => none
  | octet :: name => if octet = mark then (Text.decode? name).map String.ofList else none

/-! ## Reading -/

/-- The characters of a tag besides the percent sign.  Where the tag stands between angle
brackets, or in a directive, it may hold commas and square brackets too. -/
def isTagChar (delimited : Bool) (c : Char) : Bool :=
  isNameChar c || ";/?:@&=+$.!~*'()".contains c || (delimited && ",[]".contains c)

/-- How many octets follow the first one of a group. -/
def furtherCount? (octet : UInt8) : Option Nat :=
  if octet < 0x80 then some 0
  else if octet < 0xC0 then none
  else if octet < 0xE0 then some 1
  else if octet < 0xF0 then some 2
  else if octet < 0xF8 then some 3
  else none

/-- The octet that a percent sign and two digits stand for. -/
def escapedOctet? : List Char → Option (UInt8 × List Char)
  | '%' :: high :: low :: rest =>
      (Text.hexNumber? [high, low]).map fun octet => (UInt8.ofNat octet, rest)
  | _ => none

/-- The next `count` escaped octets, each of which has to continue a group. -/
def furtherOctets? : Nat → List Char → Option (List UInt8)
  | 0, _ => some []
  | count + 1, text => do
      let (octet, rest) ← escapedOctet? text
      if 0x80 ≤ octet && octet < 0xC0 then
        (furtherOctets? count rest).map (octet :: ·)
      else none

/-- The group of escaped octets at the beginning of a text. -/
def escapedGroup? (text : List Char) : Option (List UInt8) := do
  let (octet, rest) ← escapedOctet? text
  let count ← furtherCount? octet
  (furtherOctets? count rest).map (octet :: ·)

/-- The octets written at the cursor, those after a zero too. -/
def octets (delimited : Bool) : Nat → Cursor → Except Fault (List UInt8 × Cursor)
  | 0, cursor => .ok ([], cursor)
  | steps + 1, cursor =>
      match cursor.peek? with
      | some '%' =>
          match escapedGroup? cursor.rest with
          | some group => do
              let (later, next) ← octets delimited steps (cursor.advance (3 * group.length))
              return (group ++ later, next)
          | none => .error .badTag
      | some c =>
          if isTagChar delimited c then do
            let (later, next) ← octets delimited steps (cursor.advance 1)
            return (UInt8.ofNat c.toNat :: later, next)
          else .ok ([], cursor)
      | none => .ok ([], cursor)

/-- Read a tag, which may be empty. -/
def read (delimited : Bool) (cursor : Cursor) : Except Fault (Tag × Cursor) := do
  let (written, next) ← octets delimited cursor.rest.length cursor
  return (untilZero written, next)

/-- Read a tag for which something has to be written. -/
def readSome (delimited : Bool) (cursor : Cursor) : Except Fault (Tag × Cursor) := do
  let (written, next) ← octets delimited cursor.rest.length cursor
  if written.isEmpty then throw .badTag
  return (untilZero written, next)

end Tag

end HandlerLint.Yaml
