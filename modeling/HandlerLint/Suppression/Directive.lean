import HandlerLint.Text.Blank

/-!
# Directives in comments

A directive is a comment that asks for a diagnostic to be kept quiet.  It is
written in one of three styles,

    // swallowcheck:KEYWORD RULE - REASON
    #  swallowcheck:KEYWORD RULE - REASON
    /* swallowcheck:KEYWORD RULE - REASON */

with any blanks after the opener and a reason that may be left out.  A line is
searched for each style in this order, each time from the left; the first place
where the style fits is the line's directive.
-/

namespace HandlerLint.Suppression

open HandlerLint.Text

/-- What a directive asks for. -/
inductive Keyword where
  | ignore
  | ignoreFile
  | ignoreNextLine
deriving DecidableEq, Repr

/-- How a keyword is written. -/
def Keyword.text : Keyword → List Char
  | .ignore => "ignore".toList
  | .ignoreFile => "ignore-file".toList
  | .ignoreNextLine => "ignore-next-line".toList

/-- A directive without its place. -/
structure Directive where
  keyword : Keyword
  rule : List Char
  reason : List Char
deriving DecidableEq, Repr

/-- What every directive starts with, after the opener. -/
def signature : List Char :=
  "swallowcheck:".toList

/-- The text after a given beginning. -/
def strip? : List Char → List Char → Option (List Char)
  | [], text => some text
  | _ :: _, [] => none
  | c :: beginning, d :: text => if c = d then strip? beginning text else none

/-- The text after a keyword and the blanks that have to follow it, if it is not
empty. -/
def afterKeyword? (keyword : Keyword) (text : List Char) : Option (List Char) :=
  match strip? keyword.text text with
  | some (c :: rest) =>
      if isBlank c then
        match dropBlank rest with
        | [] => none
        | payload => some payload
      else none
  | _ => none

/-- The keyword after an opener, and the payload after the keyword. -/
def keyworded? (text : List Char) : Option (Keyword × List Char) :=
  match strip? signature (dropBlank text) with
  | none => none
  | some rest =>
      [Keyword.ignoreFile, .ignoreNextLine, .ignore].findSome? fun keyword =>
        (afterKeyword? keyword rest).map fun payload => (keyword, payload)

/-- Whether a character is not blank. -/
def isSolid (c : Char) : Bool :=
  !isBlank c

/-- The rule and the reason of a payload that runs to the end of the line.  The rule
is the longest text without blanks; a reason follows a hyphen. -/
def linePayload (payload : List Char) : List Char × List Char :=
  let reason :=
    match dropBlank (payload.dropWhile isSolid) with
    | '-' :: rest => trim rest
    | _ => []
  (payload.takeWhile isSolid, reason)

/-- The text before the first `*/`. -/
def beforeCloser? : List Char → Option (List Char)
  | '*' :: '/' :: _ => some []
  | [] => none
  | c :: rest => (beforeCloser? rest).map (c :: ·)

/-- The reason in the text after a rule, if a `*/` follows. -/
def closedReason? (text : List Char) : Option (List Char) :=
  match dropBlank text with
  | '-' :: rest => (beforeCloser? rest).map trim
  | '*' :: '/' :: _ => some []
  | _ => none

/-- The rule and the reason of a payload that a `*/` ends.  The rule is the longest
text without blanks after which a reason or the `*/` can follow. -/
def blockPayload? (payload : List Char) : Option (List Char × List Char) :=
  let longest := (payload.takeWhile isSolid).length
  (List.range longest).reverse.findSome? fun shorter =>
    (closedReason? (payload.drop (shorter + 1))).map fun reason =>
      (payload.take (shorter + 1), reason)

/-- A way to write a directive. -/
inductive Style where
  | slashes
  | hash
  | block
deriving DecidableEq, Repr

/-- How a comment of a style opens. -/
def Style.opener : Style → List Char
  | .slashes => ['/', '/']
  | .hash => ['#']
  | .block => ['/', '*']

/-- The rule and the reason of a payload in a given style. -/
def Style.payload? (style : Style) (payload : List Char) :
    Option (List Char × List Char) :=
  match style with
  | .slashes | .hash => some (linePayload payload)
  | .block => blockPayload? payload

/-- The directive that starts right at the beginning of a text. -/
def Style.directive? (style : Style) (text : List Char) : Option Directive :=
  match strip? style.opener text with
  | none => none
  | some rest =>
      match keyworded? rest with
      | none => none
      | some (keyword, payload) =>
          (style.payload? payload).map fun (rule, reason) => { keyword, rule, reason }

/-- The first directive of a style in a text, with the text before it. -/
def Style.find? (style : Style) : List Char → Option (List Char × Directive)
  | [] => none
  | c :: rest =>
      match style.directive? (c :: rest) with
      | some directive => some ([], directive)
      | none => (style.find? rest).map fun (before, directive) => (c :: before, directive)

/-- The directive of a line, with the text before it. -/
def lineDirective? (line : List Char) : Option (List Char × Directive) :=
  [Style.slashes, .hash, .block].findSome? (·.find? line)

end HandlerLint.Suppression
