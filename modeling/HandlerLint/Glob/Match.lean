import HandlerLint.Glob.Pattern
import HandlerLint.Text.Utf8

/-!
# Matching globs

A pattern is matched against the bytes of a whole path.  Each piece takes what is
left of the path to everything that may be left after the piece; the pattern matches
when nothing may be left at the end.  What is left is always an end of the path, so
two remainders of the same length are the same.

A class is a set of bytes: a character outside ASCII contributes each of its bytes,
and in a range the last byte of the lower end runs to the first byte of the upper one.
-/

namespace HandlerLint.Glob

open HandlerLint.Text

/-- The slash as a byte. -/
def slash : UInt8 :=
  0x2F

/-- The bytes of a character. -/
def charBytes (c : Char) : List UInt8 :=
  encode c.toString

/-- The ends of a byte string, from the whole to nothing. -/
def ends : List UInt8 → List (List UInt8)
  | [] => [[]]
  | byte :: rest => (byte :: rest) :: ends rest

/-- What is left after each slash. -/
def afterSlashes (input : List UInt8) : List (List UInt8) :=
  (ends input).filterMap fun rest =>
    match rest with
    | byte :: rest => if byte = slash then some rest else none
    | [] => none

/-- What is left after a slash at the very beginning. -/
def afterSlash? : List UInt8 → Option (List UInt8)
  | byte :: rest => if byte = slash then some rest else none
  | [] => none

/-- Add a remainder, with its length, to some of which none has that length. -/
def keepNew
    (remainder : List UInt8) (kept : List (Nat × List UInt8)) : List (Nat × List UInt8) :=
  let size := remainder.length
  if kept.any (·.1 == size) then kept else (size, remainder) :: kept

/-- Each remainder once. -/
def distinct (remainders : List (List UInt8)) : List (List UInt8) :=
  (remainders.foldr keepNew []).map (·.2)

/-- The ranges of bytes that a range of characters stands for. -/
def byteRanges (low high : Char) : List (UInt8 × UInt8) :=
  let single (byte : UInt8) := (byte, byte)
  if low = high then (charBytes low).map single
  else
    let lows := charBytes low
    let highs := charBytes high
    lows.dropLast.map single ++
      (match lows.getLast?, highs.head? with
        | some last, some first => [(last, first)]
        | _, _ => []) ++
      highs.tail.map single

/-- Whether a byte lies in some ranges of characters. -/
def inRanges (ranges : List (Char × Char)) (byte : UInt8) : Bool :=
  ranges.any fun (low, high) =>
    (byteRanges low high).any fun (first, last) => first ≤ byte && byte ≤ last

mutual

/-- Whether a piece matches nothing but the empty text and leaves no trace. -/
def Token.isVoid : Token → Bool
  | .literal _ => false
  | .any => false
  | .star => false
  | .leadingDirs => false
  | .middleDirs => false
  | .trailingDirs => false
  | .charClass _ _ => false
  | .alternates branches => allBranchesVoid branches

/-- Whether all pieces are void. -/
def allVoid : List Token → Bool
  | [] => true
  | token :: tokens => token.isVoid && allVoid tokens

/-- Whether all alternatives are void. -/
def allBranchesVoid : List (List Token) → Bool
  | [] => true
  | branch :: branches => allVoid branch && allBranchesVoid branches

end

mutual

/-- What may be left of an input after a piece. -/
def Token.remainders : Token → List UInt8 → List (List UInt8)
  | .literal c, input =>
      if (charBytes c).isPrefixOf input then [input.drop (charBytes c).length] else []
  | .any, input =>
      match input with
      | _ :: rest => [rest]
      | [] => []
  | .star, input => ends input
  | .leadingDirs, input => input :: afterSlashes input
  | .middleDirs, input =>
      match afterSlash? input with
      | some rest => rest :: afterSlashes rest
      | none => []
  | .trailingDirs, input =>
      match afterSlash? input with
      | some rest => ends rest
      | none => []
  | .charClass negated ranges, input =>
      match input with
      | byte :: rest => if inRanges ranges byte != negated then [rest] else []
      | [] => []
  | .alternates branches, input =>
      if allBranchesVoid branches then [input] else branchRemainders branches input

/-- What may be left of some inputs after some pieces. -/
def remaindersAfter : List Token → List (List UInt8) → List (List UInt8)
  | [], inputs => inputs
  | token :: tokens, inputs =>
      remaindersAfter tokens (distinct (inputs.flatMap token.remainders))

/-- What may be left of an input after one of some alternatives.  An empty alternative
does not count. -/
def branchRemainders : List (List Token) → List UInt8 → List (List UInt8)
  | [], _ => []
  | branch :: branches, input =>
      (if allVoid branch then [] else remaindersAfter branch [input]) ++
        branchRemainders branches input

end

/-- Whether the pieces of a pattern match a path.  A pattern that is only `**` matches
everything. -/
def matchesPath (tokens : List Token) (path : String) : Bool :=
  match tokens with
  | [.leadingDirs] => true
  | _ => (remaindersAfter tokens [encode path]).any List.isEmpty

/-- Whether a text is a pattern and matches a path. -/
def isMatch (pattern path : String) : Bool :=
  match parse pattern with
  | .ok tokens => matchesPath tokens path
  | .error _ => false

end HandlerLint.Glob
