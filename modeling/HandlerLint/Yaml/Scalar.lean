import HandlerLint.Text.Hex
import HandlerLint.Yaml.Cursor

/-!
# YAML scalars

A scalar is written plain, between quotes or as a block.  Plain and quoted scalars are
words with gaps between them: a gap on one line counts as it stands, a single line break
counts as a space, and of several breaks the first one is dropped.  A block keeps its
lines, or folds them where neither neighbour is indented further.

Every loop is bounded by the number of characters left, given as `steps`.
-/

namespace HandlerLint.Yaml

/-- How a scalar is written. -/
inductive ScalarStyle where
  | plain
  | singleQuoted
  | doubleQuoted
  | literal
  | folded
deriving DecidableEq, Repr

/-! ## Gaps between words -/

/-- What stands between two words. -/
structure Gap where
  /-- The blanks, when the gap lies within a line. -/
  blanks : String
  firstBreak : String
  laterBreaks : String
  /-- Whether the gap goes over the end of a line. -/
  broken : Bool
deriving Repr

namespace Gap

/-- Nothing between two words. -/
def none : Gap :=
  { blanks := "", firstBreak := "", laterBreaks := "", broken := false }

/-- A gap with one more blank.  Blanks next to a line break do not count. -/
def addBlank (gap : Gap) (c : Char) : Gap :=
  if gap.broken then gap else { gap with blanks := gap.blanks.push c }

/-- A gap with one more line break. -/
def addBreak (gap : Gap) (text : String) : Gap :=
  if gap.broken then { gap with laterBreaks := gap.laterBreaks ++ text }
  else { gap with blanks := "", firstBreak := text, broken := true }

/-- What a gap contributes to the scalar. -/
def folded (gap : Gap) : String :=
  if !gap.broken then gap.blanks
  else if gap.firstBreak != "\n" then gap.firstBreak ++ gap.laterBreaks
  else if gap.laterBreaks.isEmpty then " "
  else gap.laterBreaks

/-- Read on in a gap.  A tab on a later line must not stand left of column `level`. -/
def scan (level : Nat) : Nat → Gap → Cursor → Except Fault (Gap × Cursor)
  | 0, gap, cursor => .ok (gap, cursor)
  | steps + 1, gap, cursor =>
      match cursor.takeBreak?, cursor.peek? with
      | some (text, next), _ => scan level steps (gap.addBreak text) next
      | _, some c =>
          if !isBlank c then .ok (gap, cursor)
          else if gap.broken && cursor.column < level && c = '\t' then .error .tabIndentation
          else scan level steps (gap.addBlank c) (cursor.advance 1)
      | _, _ => .ok (gap, cursor)

end Gap

/-! ## Plain scalars -/

/-- The characters that delimit the items of a flow collection. -/
def isFlowMark (c : Char) : Bool :=
  c = ',' || c = '[' || c = ']' || c = '\x7b' || c = '\x7d'

/-- A word of a plain scalar.  It ends before a blank, a colon that ends a word and, in
a flow collection, before a delimiter. -/
def plainWord (inFlow : Bool) : List Char → Except Fault (List Char)
  | [] => .ok []
  | c :: rest =>
      if isBlank c || isBreak c then .ok []
      else if inFlow && c = ':' && rest.head?.any (fun d => d = '?' || isFlowMark d) then
        .error .gluedColon
      else if (c = ':' && endsWord rest.head?) || (inFlow && isFlowMark c) then .ok []
      else (plainWord inFlow rest).map (c :: ·)

/-- A scanned plain scalar. -/
structure PlainScan where
  text : String
  /-- Whether the scalar was followed by the end of its line. -/
  broken : Bool
  next : Cursor

/-- Read on in a plain scalar after a gap.  Outside flow collections a line left of
column `level` does not continue it. -/
def plainScalar (inFlow : Bool) (level : Nat) :
    Nat → String → Gap → Cursor → Except Fault PlainScan
  | 0, text, gap, cursor => .ok { text, broken := gap.broken, next := cursor }
  | steps + 1, text, gap, cursor => do
      if cursor.atDocumentMark || cursor.sees '#' then
        return { text, broken := gap.broken, next := cursor }
      let word ← plainWord inFlow cursor.rest
      if word.isEmpty then
        return { text, broken := gap.broken, next := cursor }
      let text := text ++ gap.folded ++ String.ofList word
      let cursor := cursor.advance word.length
      let (gap, next) ← Gap.scan level cursor.rest.length .none cursor
      if !inFlow && next.column < level && (gap.broken || !gap.blanks.isEmpty) then
        return { text, broken := gap.broken, next }
      plainScalar inFlow level steps text gap next

/-! ## Quoted scalars -/

/-- The escapes that stand for one fixed character. -/
def namedEscape? : Char → Option Char
  | '0' => some (Char.ofNat 0x00)
  | 'a' => some (Char.ofNat 0x07)
  | 'b' => some (Char.ofNat 0x08)
  | 't' | '\t' => some '\t'
  | 'n' => some '\n'
  | 'v' => some (Char.ofNat 0x0B)
  | 'f' => some (Char.ofNat 0x0C)
  | 'r' => some '\r'
  | 'e' => some (Char.ofNat 0x1B)
  | ' ' => some ' '
  | '"' => some '"'
  | '/' => some '/'
  | '\\' => some '\\'
  | 'N' => some (Char.ofNat 0x85)
  | '_' => some (Char.ofNat 0xA0)
  | 'L' => some lineSeparator
  | 'P' => some paragraphSeparator
  | _ => none

/-- How many hexadecimal digits follow an escape that gives a code. -/
def codeLength? : Char → Option Nat
  | 'x' => some 2
  | 'u' => some 4
  | 'U' => some 8
  | _ => none

/-- Read an escape, given what follows the backslash: the character and the length of
the escape without the backslash. -/
def escape (rest : List Char) : Except Fault (Char × Nat) :=
  match rest with
  | [] => .error .badEscape
  | c :: rest =>
      match namedEscape? c, codeLength? c with
      | some denoted, _ => .ok (denoted, 1)
      | none, some count =>
          let digits := rest.take count
          if digits.length < count then .error .badEscape
          else
            match (Text.hexNumber? digits).bind Text.charOfCode? with
            | some denoted => .ok (denoted, count + 1)
            | none => .error .badEscape
      | none, none => .error .badEscape

/-- What ends a word of a quoted scalar. -/
inductive WordEnd where
  /-- A blank, a break or the end of the text. -/
  | gap
  /-- A line break after a backslash, which has been passed. -/
  | escapedBreak
  /-- The closing quote. -/
  | closed
deriving DecidableEq, Repr

/-- Read on in a word between single quotes. -/
def singleQuotedWord : Nat → String → Cursor → Except Fault (String × WordEnd × Cursor)
  | 0, text, cursor => .ok (text, .gap, cursor)
  | steps + 1, text, cursor =>
      match cursor.rest with
      | '\'' :: '\'' :: _ => singleQuotedWord steps (text.push '\'') (cursor.advance 2)
      | '\'' :: _ => .ok (text, .closed, cursor)
      | c :: _ =>
          if isBlank c || isBreak c then .ok (text, .gap, cursor)
          else singleQuotedWord steps (text.push c) (cursor.advance 1)
      | [] => .ok (text, .gap, cursor)

/-- Read on in a word between double quotes. -/
def doubleQuotedWord : Nat → String → Cursor → Except Fault (String × WordEnd × Cursor)
  | 0, text, cursor => .ok (text, .gap, cursor)
  | steps + 1, text, cursor =>
      match cursor.rest with
      | '"' :: _ => .ok (text, .closed, cursor)
      | '\\' :: rest =>
          match (cursor.advance 1).takeBreak? with
          | some (_, next) => .ok (text, .escapedBreak, next)
          | none => do
              let (denoted, length) ← escape rest
              doubleQuotedWord steps (text.push denoted) (cursor.advance (length + 1))
      | c :: _ =>
          if isBlank c || isBreak c then .ok (text, .gap, cursor)
          else doubleQuotedWord steps (text.push c) (cursor.advance 1)
      | [] => .ok (text, .gap, cursor)

/-- Read on in a quoted scalar after a gap, with a reader for its words. -/
def quotedScalar
    (word : Nat → String → Cursor → Except Fault (String × WordEnd × Cursor)) :
    Nat → String → Cursor → Except Fault (String × Cursor)
  | 0, _, _ => .error .unclosedQuote
  | steps + 1, text, cursor => do
      if cursor.atDocumentMark || cursor.rest.isEmpty then
        throw .unclosedQuote
      let (text, ending, cursor) ← word (cursor.rest.length + 1) text cursor
      if ending = .closed then
        return (text, cursor.advance 1)
      let opened := { Gap.none with broken := ending == .escapedBreak }
      let (gap, next) ← Gap.scan 0 cursor.rest.length opened cursor
      quotedScalar word steps (text ++ gap.folded) next

/-! ## Block scalars -/

/-- What becomes of the line breaks at the end of a block scalar. -/
inductive Chomping where
  /-- The first one is kept. -/
  | clip
  /-- None is kept. -/
  | strip
  /-- All are kept. -/
  | keep
deriving DecidableEq, Repr

/-- A chomping indicator, if one follows. -/
def chomping? (cursor : Cursor) : Option Chomping :=
  if cursor.sees '+' then some .keep
  else if cursor.sees '-' then some .strip
  else none

/-- An indentation indicator, if one follows.  Zero is none. -/
def indentation? (cursor : Cursor) : Except Fault (Option Nat) :=
  match cursor.peek? with
  | some c =>
      if !c.isDigit then .ok none
      else if c = '0' then .error .badBlockHeader
      else .ok (some (c.toNat - '0'.toNat))
  | none => .ok none

/-- The first line of a block scalar: chomping and, if given, further indentation, in
either order. -/
def blockHeader (cursor : Cursor) : Except Fault (Chomping × Option Nat × Cursor) := do
  let (chomping, further, cursor) ←
    match chomping? cursor with
    | some chomping => do
        let cursor := cursor.advance 1
        match ← indentation? cursor with
        | some further => pure (chomping, some further, cursor.advance 1)
        | none => pure (chomping, none, cursor)
    | none => do
        match ← indentation? cursor with
        | some further =>
            let cursor := cursor.advance 1
            match chomping? cursor with
            | some chomping => pure (chomping, some further, cursor.advance 1)
            | none => pure (.clip, some further, cursor)
        | none => pure (.clip, none, cursor)
  match cursor.finishLine? with
  | some next => return (chomping, further, next)
  | none => throw .badBlockHeader

/-- Pass the empty lines before a line of a block scalar, and the indentation of that
line: the breaks passed, the widest indentation met, and the place reached.  An
indentation of zero is one still to be found. -/
def blockBreaks (indentation : Nat) :
    Nat → String → Nat → Cursor → Except Fault (String × Nat × Cursor)
  | 0, breaks, widest, cursor => .ok (breaks, widest, cursor)
  | steps + 1, breaks, widest, cursor =>
      let spaces := (cursor.rest.takeWhile (· == ' ')).length
      let cursor := cursor.advance
        (if indentation = 0 then spaces else min spaces (indentation - cursor.column))
      let widest := max widest cursor.column
      if (indentation = 0 || cursor.column < indentation) && cursor.sees '\t' then
        .error .tabIndentation
      else
        match cursor.takeBreak? with
        | some (text, next) => blockBreaks indentation steps (breaks ++ text) widest next
        | none => .ok (breaks, widest, cursor)

/-- The lines of a block scalar so far. -/
structure BlockText where
  text : String
  /-- The break that ended the last line. -/
  lineBreak : String
  /-- The breaks of the empty lines after it. -/
  emptyLines : String
  /-- Whether the last line opened with a blank. -/
  openedBlank : Bool

/-- Read on in the lines of a block scalar. -/
def blockLines (literal : Bool) (indentation : Nat) :
    Nat → BlockText → Cursor → Except Fault (BlockText × Cursor)
  | 0, block, cursor => .ok (block, cursor)
  | steps + 1, block, cursor => do
      if cursor.column != indentation || cursor.rest.isEmpty then
        return (block, cursor)
      let opensBlank := cursor.peek?.any isBlank
      let joint :=
        if !literal && block.lineBreak == "\n" && !block.openedBlank && !opensBlank then
          if block.emptyLines.isEmpty then " " else ""
        else block.lineBreak
      let (line, cursor) := cursor.takeWhile fun c => !isBreak c
      let (lineBreak, cursor) := cursor.takeBreak?.getD ("", cursor)
      let (emptyLines, _, next) ← blockBreaks indentation (cursor.rest.length + 1) "" 0 cursor
      blockLines literal indentation steps
        { text := block.text ++ joint ++ block.emptyLines ++ line
          lineBreak, emptyLines, openedBlank := opensBlank }
        next

/-- A block scalar, from the character after its indicator, inside block collections
that reach up to column `level`. -/
def blockScalar
    (literal : Bool) (level : Nat) (cursor : Cursor) : Except Fault (String × Cursor) := do
  let (chomping, further, cursor) ← blockHeader cursor
  let given := match further with
    | some further => level - 1 + further
    | none => 0
  let steps := cursor.rest.length + 1
  let (emptyLines, widest, cursor) ← blockBreaks given steps "" 0 cursor
  let indentation := if given = 0 then max (max widest level) 1 else given
  let (block, next) ← blockLines literal indentation steps
    { text := "", lineBreak := "", emptyLines, openedBlank := false } cursor
  let tail := match chomping with
    | .clip => block.lineBreak
    | .strip => ""
    | .keep => block.lineBreak ++ block.emptyLines
  return (block.text ++ tail, next)

end HandlerLint.Yaml
