import HandlerLint.Path.Component

/-!
# Paths relative to a base directory

Reports name files relative to the scanned directory.  Whether a file lies below
the base is decided on components, so a base that is only a textual beginning of
a file's path is not a parent of it.
-/

namespace HandlerLint.Path

open HandlerLint.Text

/-- The segments after the first `count` of them that stand for a component. -/
def dropComponents : Nat → List (List Char) → List (List Char)
  | 0, segments => segments
  | _ + 1, [] => []
  | count + 1, segment :: segments =>
      if isVoid segment then dropComponents (count + 1) segments
      else dropComponents count segments

/-- The text that is left of a path after its first `count` components. -/
def textAfter (count : Nat) (path : List Char) : List Char :=
  let (opening, segments) := parse path
  let rest := dropComponents (count - opening.components.length) segments
  joinWith '/' (dropTrailingVoid (rest.dropWhile isVoid))

/-- The text of a path below a base, if the base's components open the path's. -/
def stripBase? (base path : List Char) : Option (List Char) :=
  if (components base).isPrefixOf (components path) then
    some (textAfter (components base).length path)
  else
    none

/-- A backslash is written as a slash. -/
def forwardSlashes (path : List Char) : List Char :=
  path.map fun c => if c = '\\' then '/' else c

/-- How a report names a file when `base` was scanned: the path below the base,
the file's own name when the base is the file, and the path as it is when it does
not lie below the base or there is no base. -/
def relativeTo (base file : List Char) : List Char :=
  if base = [] then file
  else if components file = components base then (fileName? file).getD file
  else
    match stripBase? base file with
    | some below => forwardSlashes below
    | none => file

/-- `relativeTo` on strings. -/
def relativeName (base file : String) : String :=
  String.ofList (relativeTo base.toList file.toList)

end HandlerLint.Path
