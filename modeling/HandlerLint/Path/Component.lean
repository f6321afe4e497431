import HandlerLint.Text.Split

/-!
# Path components

A path is text; what it denotes is its list of components.  Repeated slashes, a
trailing slash and every `.` that does not open a relative path denote nothing.
Two paths are the same when their components are.

The text of a path is read as an opening (a leading slash or a leading `.`, or
neither) followed by the segments between its slashes.
-/

namespace HandlerLint.Path

open HandlerLint.Text

/-- One step of a path. -/
inductive Component where
  /-- The leading slash of an absolute path. -/
  | root
  /-- A `.` that opens a relative path. -/
  | current
  /-- A `..` step. -/
  | parent
  /-- A named step. -/
  | normal (name : List Char)
deriving DecidableEq, Repr

/-- How a path opens. -/
inductive Opening where
  /-- With a slash: the path is absolute. -/
  | root
  /-- With a `.` segment. -/
  | current
  /-- With a segment of its own. -/
  | plain
deriving DecidableEq, Repr

/-- The component that an opening stands for. -/
def Opening.components : Opening → List Component
  | .root => [.root]
  | .current => [.current]
  | .plain => []

/-- The component a segment between slashes stands for, if it stands for one. -/
def segmentComponent? (segment : List Char) : Option Component :=
  if segment = [] ∨ segment = ['.'] then none
  else if segment = ['.', '.'] then some .parent
  else some (.normal segment)

/-- Whether a segment stands for nothing. -/
def isVoid (segment : List Char) : Bool :=
  (segmentComponent? segment).isNone

/-- A path as its opening and the segments after it. -/
def parse (path : List Char) : Opening × List (List Char) :=
  match splitOn '/' path with
  | [] => (.plain, [])
  | [segment] => if segment = ['.'] then (.current, []) else (.plain, [segment])
  | first :: rest =>
      if first = [] then (.root, rest)
      else if first = ['.'] then (.current, rest)
      else (.plain, first :: rest)

/-- The text of an opening and the segments after it. -/
def render : Opening → List (List Char) → List Char
  | .root, segments => '/' :: joinWith '/' segments
  | .current, [] => ['.']
  | .current, segments => '.' :: '/' :: joinWith '/' segments
  | .plain, segments => joinWith '/' segments

/-- The components of a path. -/
def components (path : List Char) : List Component :=
  (parse path).1.components ++ (parse path).2.filterMap segmentComponent?

/-- The last component's name, if the last component is a name. -/
def fileName? (path : List Char) : Option (List Char) :=
  match (components path).getLast? with
  | some (.normal name) => some name
  | _ => none

/-- The part of a file name after its last dot.  A dot that opens the name does
not count. -/
def extensionOfName? (name : List Char) : Option (List Char) :=
  match name.reverse.dropWhile (· ≠ '.') with
  | [] | [_] => none
  | _ :: _ :: _ => some (name.reverse.takeWhile (· ≠ '.')).reverse

/-- The extension of a path's file name. -/
def extension? (path : List Char) : Option (List Char) :=
  (fileName? path).bind extensionOfName?

/-- Segments without the trailing ones that stand for nothing. -/
def dropTrailingVoid (segments : List (List Char)) : List (List Char) :=
  (segments.reverse.dropWhile isVoid).reverse

/-- The text of a path without its last component.  The root and the empty path
have no parent. -/
def parent? (path : List Char) : Option (List Char) :=
  let (opening, segments) := parse path
  match (dropTrailingVoid segments).reverse with
  | _ :: rest => some (render opening (dropTrailingVoid rest.reverse))
  | [] =>
      match opening with
      | .current => some []
      | .root | .plain => none

/-- A path, its parent, the parent of that and so on, at most `steps` of them. -/
def ancestorsWithin : Nat → List Char → List (List Char)
  | 0, _ => []
  | steps + 1, path =>
      match parent? path with
      | some parent => path :: ancestorsWithin steps parent
      | none => [path]

/-- A path and all paths above it.  A parent is shorter than its path. -/
def ancestors (path : List Char) : List (List Char) :=
  ancestorsWithin (path.length + 1) path

/-- The path of an entry of a directory, written from the directory's own path. -/
def join (directory name : List Char) : List Char :=
  if name.head? = some '/' then name
  else if directory.isEmpty || directory.getLast? = some '/' then directory ++ name
  else directory ++ '/' :: name

end HandlerLint.Path
