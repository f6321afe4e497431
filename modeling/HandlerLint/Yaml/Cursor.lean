/-!
# Positions in a YAML text

A cursor is what is left of a text together with the place it has reached: the line, the
column in characters and the offset in bytes, all counted from zero.

A line ends at a line feed, a carriage return, both in that order, or one of the three
further break characters.  A break counts as a line feed in the content of a scalar,
except the line and the paragraph separator, which stand for themselves.
-/

namespace HandlerLint.Yaml

/-- Why a text is no single YAML document. -/
inductive Fault where
  /-- A control character stands in the text. -/
  | controlCharacter
  /-- A tab stands where indentation is counted. -/
  | tabIndentation
  /-- A directive is unknown, repeated or malformed. -/
  | badDirective
  /-- An anchor or an alias has no proper name. -/
  | badAnchor
  /-- A tag is malformed. -/
  | badTag
  /-- A tag uses a handle that no directive declares. -/
  | undeclaredHandle
  /-- The first line of a block scalar is malformed. -/
  | badBlockHeader
  /-- A quoted scalar is not closed within its document. -/
  | unclosedQuote
  /-- An escape sequence is unknown or denotes no character. -/
  | badEscape
  /-- A colon is glued to an indicator. -/
  | gluedColon
  /-- A line that has to be a key has no colon. -/
  | missingColon
  /-- An entry, key or value indicator stands where none may stand. -/
  | misplacedIndicator
  /-- A character can start no token. -/
  | unexpectedCharacter
  /-- A token does not continue the document. -/
  | unexpectedToken
  /-- An alias names no earlier anchor. -/
  | unknownAlias
deriving DecidableEq, Repr

/-- The characters that separate words on a line. -/
def isBlank (c : Char) : Bool :=
  c = ' ' || c = '\t'

/-- The line separator. -/
def lineSeparator : Char :=
  Char.ofNat 0x2028

/-- The paragraph separator. -/
def paragraphSeparator : Char :=
  Char.ofNat 0x2029

/-- The characters that end a line. -/
def isBreak (c : Char) : Bool :=
  c = '\n' || c = '\r' || c = Char.ofNat 0x85 || c = lineSeparator || c = paragraphSeparator

/-- Whether a character, if there is one, belongs to no word. -/
def endsWord : Option Char → Bool
  | some c => isBlank c || isBreak c
  | none => true

/-- The characters of names: ASCII letters and digits, `_` and `-`. -/
def isNameChar (c : Char) : Bool :=
  c.isAlphanum || c = '_' || c = '-'

/-- The characters that may stand in a text. -/
def isAllowed (c : Char) : Bool :=
  c = '\t' || c = '\n' || c = '\r' || (' ' ≤ c && c ≤ '~') || c = Char.ofNat 0x85 ||
    (0xA0 ≤ c.toNat && c.toNat ≤ 0xFFFD) || 0x10000 ≤ c.toNat

/-- The byte order mark, which may open a line. -/
def byteOrderMark : Char :=
  Char.ofNat 0xFEFF

/-- The bytes that some characters take. -/
def byteCount (text : List Char) : Nat :=
  text.foldl (fun count c => count + c.utf8Size) 0

/-- A place in a text and what is left from there. -/
structure Cursor where
  rest : List Char
  /-- The bytes passed. -/
  offset : Nat
  line : Nat
  column : Nat
deriving Repr

namespace Cursor

/-- The beginning of a text. -/
def start (text : List Char) : Cursor :=
  { rest := text, offset := 0, line := 0, column := 0 }

/-- The next character. -/
def peek? (cursor : Cursor) : Option Char :=
  cursor.rest.head?

/-- The character after the next `count` ones. -/
def peekAt? (cursor : Cursor) (count : Nat) : Option Char :=
  cursor.rest[count]?

/-- Whether the next character is a given one. -/
def sees (cursor : Cursor) (c : Char) : Bool :=
  cursor.peek? == some c

/-- Pass some characters of the line. -/
def advance (cursor : Cursor) (count : Nat) : Cursor :=
  { cursor with
    rest := cursor.rest.drop count
    offset := cursor.offset + byteCount (cursor.rest.take count)
    column := cursor.column + count }

/-- The beginning of the next line, `count` characters on. -/
def nextLine (cursor : Cursor) (count : Nat) : Cursor :=
  { rest := cursor.rest.drop count
    offset := cursor.offset + byteCount (cursor.rest.take count)
    line := cursor.line + 1
    column := 0 }

/-- Pass a line break: what it counts as in a scalar, and the next line. -/
def takeBreak? (cursor : Cursor) : Option (String × Cursor) :=
  match cursor.rest with
  | '\r' :: '\n' :: _ => some ("\n", cursor.nextLine 2)
  | c :: _ =>
      if c = lineSeparator ∨ c = paragraphSeparator then some (c.toString, cursor.nextLine 1)
      else if isBreak c then some ("\n", cursor.nextLine 1)
      else none
  | [] => none

/-- The longest run of characters of a class, none of them a break, and what follows it. -/
def takeWhile (cursor : Cursor) (p : Char → Bool) : String × Cursor :=
  let run := cursor.rest.takeWhile p
  (String.ofList run, cursor.advance run.length)

/-- Pass the longest run of characters of a class, none of them a break. -/
def skipWhile (cursor : Cursor) (p : Char → Bool) : Cursor :=
  (cursor.takeWhile p).2

/-- Pass spaces and tabs. -/
def skipBlanks (cursor : Cursor) : Cursor :=
  cursor.skipWhile isBlank

/-- Pass a comment, up to the end of its line. -/
def skipComment (cursor : Cursor) : Cursor :=
  if cursor.sees '#' then cursor.skipWhile fun c => !isBreak c else cursor

/-- Pass the blanks and the comment at the end of a line and its break.  Nothing else
may stand there. -/
def finishLine? (cursor : Cursor) : Option Cursor :=
  let cursor := cursor.skipBlanks.skipComment
  match cursor.takeBreak? with
  | some (_, next) => some next
  | none => if cursor.rest.isEmpty then some cursor else none

/-- Whether the line opens with three times a given character and nothing glued to it. -/
def atMark (cursor : Cursor) (c : Char) : Bool :=
  cursor.column == 0 && cursor.rest.take 3 == [c, c, c] && endsWord (cursor.peekAt? 3)

/-- Whether a mark that starts or ends a document opens the line. -/
def atDocumentMark (cursor : Cursor) : Bool :=
  cursor.atMark '-' || cursor.atMark '.'

end Cursor

end HandlerLint.Yaml
