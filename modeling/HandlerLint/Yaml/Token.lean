import HandlerLint.Yaml.Scalar
import HandlerLint.Yaml.Tag

/-!
# YAML tokens

A text is read as a list of tokens.  Indentation shows in tokens too: one opens each
block collection and one closes it.

Whether a word is a key shows only at the colon after it.  The place of every word that
may turn out to be a key is therefore remembered, one per open flow collection and one
outside all of them, and the colon puts a `key` token there.  Such a word has to stand
on one line with its colon, at most 1024 bytes before it.

Block collections are told apart by their *level*, one more than the column they stand
in; the level is zero outside all of them.
-/

namespace HandlerLint.Yaml

/-- A token of a YAML text. -/
inductive Token where
  /-- A version directive. -/
  | version (major minor : Nat)
  /-- A directive that says what a tag handle stands for. -/
  | handle (handle : String) (meaning : Tag)
  | documentStart
  | documentEnd
  | blockSequenceStart
  | blockMappingStart
  /-- The end of a block collection. -/
  | blockEnd
  | flowSequenceStart
  | flowSequenceEnd
  | flowMappingStart
  | flowMappingEnd
  /-- The dash of a block sequence. -/
  | blockEntry
  /-- The comma of a flow collection. -/
  | flowEntry
  | key
  | value
  | anchor (name : String)
  | alias (name : String)
  /-- A tag as a handle and what follows it. -/
  | tag (handle : String) (suffix : Tag)
  | scalar (text : String) (style : ScalarStyle)
deriving DecidableEq, Repr

/-! ## Directives, anchors and tags -/

/-- The whole number at the cursor, of at most nine digits. -/
def versionNumber (cursor : Cursor) : Except Fault (Nat × Cursor) :=
  let (digits, next) := cursor.takeWhile Char.isDigit
  if digits.isEmpty || 9 < digits.length then .error .badDirective
  else .ok (digits.toList.foldl (fun n c => n * 10 + (c.toNat - '0'.toNat)) 0, next)

/-- A tag handle: an exclamation mark, a name, and a second mark where there is one. -/
def tagHandle (cursor : Cursor) : Except Fault (String × Cursor) :=
  if cursor.sees '!' then
    let (name, next) := (cursor.advance 1).takeWhile isNameChar
    if next.sees '!' then .ok ("!" ++ name ++ "!", next.advance 1)
    else .ok ("!" ++ name, next)
  else .error .badTag

/-- A directive, from its percent sign. -/
def directive (cursor : Cursor) : Except Fault (Token × Cursor) := do
  let (name, cursor) := (cursor.advance 1).takeWhile isNameChar
  if !endsWord cursor.peek? then throw .badDirective
  let cursor := cursor.skipBlanks
  let (token, cursor) ←
    if name == "YAML" then do
      let (major, cursor) ← versionNumber cursor
      if !cursor.sees '.' then throw .badDirective
      let (minor, cursor) ← versionNumber (cursor.advance 1)
      pure (Token.version major minor, cursor)
    else if name == "TAG" then do
      let (handle, cursor) ← tagHandle cursor
      if handle.back != '!' then throw .badTag
      if !cursor.peek?.any isBlank then throw .badDirective
      let (meaning, cursor) ← Tag.readSome true cursor.skipBlanks
      if !endsWord cursor.peek? then throw .badDirective
      pure (Token.handle handle meaning, cursor)
    else throw .badDirective
  match cursor.finishLine? with
  | some next => return (token, next)
  | none => throw .badDirective

/-- The name of an anchor or an alias, from the character after its indicator. -/
def anchorName (cursor : Cursor) : Except Fault (String × Cursor) :=
  let (name, next) := cursor.takeWhile isNameChar
  if !name.isEmpty && (endsWord next.peek? || next.peek?.any fun c => "?:,]\x7d%@`".contains c) then
    .ok (name, next)
  else .error .badAnchor

/-- A tag, from its exclamation mark. -/
def tag (inFlow : Bool) (cursor : Cursor) : Except Fault (Token × Cursor) := do
  let (token, next) ←
    if cursor.peekAt? 1 == some '<' then do
      let (suffix, cursor) ← Tag.readSome true (cursor.advance 2)
      if !cursor.sees '>' then throw .badTag
      pure (Token.tag "" suffix, cursor.advance 1)
    else do
      let (handle, cursor) ← tagHandle cursor
      if handle.length != 1 && handle.back == '!' then do
        let (suffix, cursor) ← Tag.readSome false cursor
        pure (Token.tag handle suffix, cursor)
      else do
        let name := String.ofList (handle.toList.drop 1)
        let (later, cursor) ← Tag.read false cursor
        let suffix := Tag.ofText name ++ later
        pure (if suffix.isEmpty then Token.tag "" Tag.lone else Token.tag "!" suffix, cursor)
  if endsWord next.peek? || (inFlow && next.sees ',') then
    return (token, next)
  throw .badTag

/-! ## The scanner -/

/-- A word that is a key if a colon follows. -/
structure PossibleKey where
  /-- The number of tokens before it. -/
  position : Nat
  /-- Whether it has to be a key. -/
  required : Bool
  /-- Where it begins. -/
  place : Cursor

/-- A text that is being read as tokens. -/
structure Scanner where
  cursor : Cursor
  /-- The tokens so far, the last one first. -/
  tokens : List Token
  /-- The levels of the open block collections, the innermost first. -/
  levels : List Nat
  /-- Whether a key may begin at the cursor. -/
  keyAllowed : Bool
  /-- What may be a key, for each open flow collection, the innermost first, and
  outside of them. -/
  keys : List (Option PossibleKey)

namespace Scanner

/-- The beginning of a text. -/
def start (text : List Char) : Scanner :=
  { cursor := .start text, tokens := [], levels := [], keyAllowed := true, keys := [none] }

/-- Whether a flow collection is open. -/
def inFlow (scanner : Scanner) : Bool :=
  1 < scanner.keys.length

/-- The level of the innermost block collection. -/
def level (scanner : Scanner) : Nat :=
  scanner.levels.head?.getD 0

/-- The word that may be a key of the innermost collection. -/
def possibleKey? (scanner : Scanner) : Option PossibleKey :=
  scanner.keys.head?.join

/-- One more token. -/
def push (token : Token) (scanner : Scanner) : Scanner :=
  { scanner with tokens := token :: scanner.tokens }

/-- A token put after the first `position` ones. -/
def insert (position : Nat) (token : Token) (scanner : Scanner) : Scanner :=
  let later := scanner.tokens.length - position
  { scanner with
    tokens := scanner.tokens.take later ++ token :: scanner.tokens.drop later }

/-- Pass some characters of the line. -/
def advance (count : Nat) (scanner : Scanner) : Scanner :=
  { scanner with cursor := scanner.cursor.advance count }

/-- A scanner after a token that was read on its own. -/
def accept (scanner : Scanner) (token : Token) (next : Cursor) : Scanner :=
  { scanner.push token with cursor := next }

/-- Say whether a key may begin next. -/
def allowKey (allowed : Bool) (scanner : Scanner) : Scanner :=
  { scanner with keyAllowed := allowed }

/-- Say what may be a key of the innermost collection. -/
def setKey (key : Option PossibleKey) (scanner : Scanner) : Scanner :=
  { scanner with keys := key :: scanner.keys.tail }

/-- The innermost collection's possible key is none after all. -/
def forgetKey (scanner : Scanner) : Except Fault Scanner :=
  match scanner.possibleKey? with
  | some key => if key.required then .error .missingColon else .ok (scanner.setKey none)
  | none => .ok scanner

/-- Remember the cursor as the beginning of a possible key. -/
def rememberKey (scanner : Scanner) : Except Fault Scanner :=
  if scanner.keyAllowed then do
    let forgotten ← scanner.forgetKey
    let required := !scanner.inFlow && scanner.level == scanner.cursor.column + 1
    return forgotten.setKey
      (some { position := scanner.tokens.length, required, place := scanner.cursor })
  else .ok scanner

/-- Forget every possible key that is too far back. -/
def forgetStale (scanner : Scanner) : Except Fault Scanner := do
  let here := scanner.cursor
  let keys ← scanner.keys.mapM fun key =>
    match key with
    | some key =>
        if key.place.line < here.line ∨ key.place.offset + 1024 < here.offset then
          if key.required then .error Fault.missingColon else .ok none
        else .ok (some key)
    | none => .ok none
  return { scanner with keys }

/-- Close the block collections of a level above a given one.  Inside a flow collection
indentation does not count. -/
def closeAbove (level : Nat) (scanner : Scanner) : Scanner :=
  if scanner.inFlow then scanner
  else
    let closed := scanner.levels.takeWhile (level < ·)
    { scanner with
      tokens := List.replicate closed.length .blockEnd ++ scanner.tokens
      levels := scanner.levels.drop closed.length }

/-- Open a block collection in a column, unless one stands there or further right.  Its
token goes after the first `position` ones. -/
def openBlock (column position : Nat) (token : Token) (scanner : Scanner) : Scanner :=
  if scanner.inFlow || column < scanner.level then scanner
  else { scanner.insert position token with levels := (column + 1) :: scanner.levels }

/-- Pass what stands between tokens.  A byte order mark may open a line.  Tabs may stand there where no key may begin, or
inside a flow collection. -/
def skipGap : Nat → Scanner → Scanner
  | 0, scanner => scanner
  | steps + 1, scanner =>
      let cursor := scanner.cursor
      let cursor :=
        if cursor.column == 0 && cursor.sees byteOrderMark then cursor.advance 1 else cursor
      let tabs := scanner.inFlow || !scanner.keyAllowed
      let cursor := (cursor.skipWhile fun c => c = ' ' || (tabs && c = '\t')).skipComment
      match cursor.takeBreak? with
      | some (_, next) =>
          skipGap steps
            { scanner with cursor := next, keyAllowed := scanner.keyAllowed || !scanner.inFlow }
      | none => { scanner with cursor }

/-- Read a token that stands outside all collections: close them first. -/
def outside (scanner : Scanner) : Except Fault Scanner := do
  let scanner ← (scanner.closeAbove 0).forgetKey
  return scanner.allowKey false

/-- Open a flow collection. -/
def openFlow (token : Token) (scanner : Scanner) : Except Fault Scanner := do
  let scanner ← scanner.rememberKey
  return ({ scanner with keys := none :: scanner.keys }.allowKey true).advance 1 |>.push token

/-- Close a flow collection. -/
def closeFlow (token : Token) (scanner : Scanner) : Except Fault Scanner := do
  let scanner ← scanner.forgetKey
  let keys := match scanner.keys with
    | _ :: key :: keys => key :: keys
    | keys => keys
  return ({ scanner with keys }.allowKey false).advance 1 |>.push token

/-- Read a comma. -/
def flowEntry (scanner : Scanner) : Except Fault Scanner := do
  let scanner ← scanner.forgetKey
  return (scanner.allowKey true).advance 1 |>.push .flowEntry

/-- Open a block collection for an indicator at the cursor, where a key may begin. -/
def openForIndicator (token : Token) (scanner : Scanner) : Except Fault Scanner :=
  if scanner.inFlow then .ok scanner
  else if scanner.keyAllowed then
    .ok (scanner.openBlock scanner.cursor.column scanner.tokens.length token)
  else .error .misplacedIndicator

/-- Read the dash of a block sequence. -/
def blockEntry (scanner : Scanner) : Except Fault Scanner := do
  let scanner ← scanner.openForIndicator .blockSequenceStart
  let scanner ← scanner.forgetKey
  return (scanner.allowKey true).advance 1 |>.push .blockEntry

/-- Read the indicator of a key. -/
def explicitKey (scanner : Scanner) : Except Fault Scanner := do
  let scanner ← scanner.openForIndicator .blockMappingStart
  let scanner ← scanner.forgetKey
  return (scanner.allowKey (!scanner.inFlow)).advance 1 |>.push .key

/-- Read a colon.  It makes the possible key a key. -/
def colon (scanner : Scanner) : Except Fault Scanner := do
  let scanner ←
    match scanner.possibleKey? with
    | some key =>
        let opened := (scanner.insert key.position .key).openBlock
          key.place.column key.position .blockMappingStart
        pure ((opened.setKey none).allowKey false)
    | none => do
        let opened ← scanner.openForIndicator .blockMappingStart
        pure (opened.allowKey (!opened.inFlow))
  return (scanner.advance 1).push .value

/-- Read an anchor, an alias, a tag or a scalar that may be a key or begin one. -/
def content
    (read : Cursor → Except Fault (Token × Cursor))
    (scanner : Scanner) : Except Fault Scanner := do
  let scanner ← scanner.rememberKey
  let (token, next) ← read scanner.cursor
  return (scanner.allowKey false).accept token next

/-- Read a block scalar. -/
def blockScalarToken (literal : Bool) (scanner : Scanner) : Except Fault Scanner := do
  let scanner ← scanner.forgetKey
  let (text, next) ← blockScalar literal scanner.level (scanner.cursor.advance 1)
  return (scanner.allowKey true).accept (.scalar text (if literal then .literal else .folded)) next

/-- Read a quoted scalar. -/
def quotedToken
    (word : Nat → String → Cursor → Except Fault (String × WordEnd × Cursor))
    (style : ScalarStyle) : Scanner → Except Fault Scanner :=
  content fun cursor => do
    let (text, next) ← quotedScalar word cursor.rest.length "" (cursor.advance 1)
    return (.scalar text style, next)

/-- Read a plain scalar.  After the end of its line a key may begin again. -/
def plainToken (scanner : Scanner) : Except Fault Scanner := do
  let scanner ← scanner.rememberKey
  let cursor := scanner.cursor
  let found ← plainScalar scanner.inFlow scanner.level (cursor.rest.length + 1) "" .none cursor
  return (scanner.allowKey found.broken).accept (.scalar found.text .plain) found.next

/-- Whether a plain scalar may begin at the cursor. -/
def startsPlain (scanner : Scanner) : Bool :=
  match scanner.cursor.peek? with
  | some c =>
      let next := scanner.cursor.peekAt? 1
      !(isBlank c || isBreak c || "-?:,[]\x7b\x7d#&*!|>'\"%@`".contains c) ||
        (c = '-' && !next.any isBlank) ||
        (!scanner.inFlow && (c = '?' || c = ':') && !endsWord next)
  | none => false

/-- Read the token that begins with a given character at the cursor. -/
def token (c : Char) (scanner : Scanner) : Except Fault Scanner := do
  let cursor := scanner.cursor
  let alone := endsWord (cursor.peekAt? 1)
  if cursor.column == 0 && c = '%' then
    let scanner ← scanner.outside
    let (read, next) ← directive cursor
    return scanner.accept read next
  else if cursor.atMark '-' then
    return (← scanner.outside).accept .documentStart (cursor.advance 3)
  else if cursor.atMark '.' then
    return (← scanner.outside).accept .documentEnd (cursor.advance 3)
  else if c = '[' then scanner.openFlow .flowSequenceStart
  else if c = '\x7b' then scanner.openFlow .flowMappingStart
  else if c = ']' then scanner.closeFlow .flowSequenceEnd
  else if c = '\x7d' then scanner.closeFlow .flowMappingEnd
  else if c = ',' then scanner.flowEntry
  else if c = '-' && alone then scanner.blockEntry
  else if c = '?' && (scanner.inFlow || alone) then scanner.explicitKey
  else if c = ':' && (scanner.inFlow || alone) then scanner.colon
  else if c = '*' then
    scanner.content fun cursor => do
      let (name, next) ← anchorName (cursor.advance 1)
      return (.alias name, next)
  else if c = '&' then
    scanner.content fun cursor => do
      let (name, next) ← anchorName (cursor.advance 1)
      return (.anchor name, next)
  else if c = '!' then scanner.content (tag scanner.inFlow)
  else if c = '|' && !scanner.inFlow then scanner.blockScalarToken true
  else if c = '>' && !scanner.inFlow then scanner.blockScalarToken false
  else if c = '\'' then scanner.quotedToken singleQuotedWord .singleQuoted
  else if c = '"' then scanner.quotedToken doubleQuotedWord .doubleQuoted
  else if scanner.startsPlain then scanner.plainToken
  else throw .unexpectedCharacter

/-- Read on to the end of the text. -/
def run : Nat → Scanner → Except Fault (List Token)
  | 0, _ => .error .unexpectedCharacter
  | steps + 1, scanner => do
      let scanner ← (scanner.skipGap (scanner.cursor.rest.length + 1)).forgetStale
      let scanner := scanner.closeAbove (scanner.cursor.column + 1)
      match scanner.cursor.peek? with
      | none => return (← scanner.outside).tokens.reverse
      | some c => run steps (← scanner.token c)

end Scanner

/-- The tokens of a text.  Every token but those that show indentation takes a character,
so as many steps as there are characters are enough. -/
def tokens (text : List Char) : Except Fault (List Token) :=
  if text.all isAllowed then Scanner.run (text.length + 1) (.start text)
  else .error .controlCharacter

end HandlerLint.Yaml
