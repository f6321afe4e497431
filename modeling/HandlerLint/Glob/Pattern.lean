/-!
# Glob patterns

The pieces of a glob pattern, and how a pattern is read.  `*` and `?` match slashes
too, a backslash makes the next character stand for itself, and groups of
alternatives may be nested.  `**` is special only as a whole path segment: at the
beginning it stands for any directories, at the end for anything below, in between
for any directories in between; elsewhere it is two single stars.
-/

namespace HandlerLint.Glob

/-- A piece of a pattern. -/
inductive Token where
  | literal (c : Char)
  /-- `?`: any one byte. -/
  | any
  /-- `*`: any bytes. -/
  | star
  /-- `**` at the beginning of a pattern or of an alternative. -/
  | leadingDirs
  /-- `**` between two segments, with both slashes. -/
  | middleDirs
  /-- `**` at the end, with the slash before it. -/
  | trailingDirs
  /-- One byte inside, or outside, of some ranges of characters. -/
  | charClass (negated : Bool) (ranges : List (Char × Char))
  | alternates (branches : List (List Token))

/-- Why a text is no pattern. -/
inductive GlobError where
  | unclosedClass
  | invalidRange (low high : Char)
  | unclosedAlternates
  | unopenedAlternates
  | danglingEscape
deriving DecidableEq, Repr

/-- What is wrong with a pattern. -/
def GlobError.detail : GlobError → String
  | .unclosedClass => "unclosed character class; missing ']'"
  | .invalidRange low high =>
      "invalid range; '" ++ low.toString ++ "' > '" ++ high.toString ++ "'"
  | .unclosedAlternates =>
      "unclosed alternate group; missing '\x7d' (maybe escape '\x7b' with '[\x7b]'?)"
  | .unopenedAlternates =>
      "unopened alternate group; missing '\x7b' (maybe escape '\x7d' with '[\x7d]'?)"
  | .danglingEscape => "dangling '\\'"

/-- The text of an error in a pattern. -/
def GlobError.message (pattern : String) (error : GlobError) : String :=
  "error parsing glob '" ++ pattern ++ "': " ++ error.detail

/-! ## Character classes -/

/-- What has been read of a character class. -/
structure ClassState where
  /-- The ranges so far, last first. -/
  ranges : List (Char × Char)
  /-- Whether nothing has been read yet. -/
  first : Bool
  /-- Whether a hyphen has just opened a range. -/
  inRange : Bool

/-- Take a character as the upper end of the last range. -/
def ClassState.extend (state : ClassState) (c : Char) : Except GlobError ClassState :=
  match state.ranges with
  | [] => .ok { ranges := [(c, c)], first := false, inRange := false }
  | (low, _) :: ranges =>
      if c < low then .error (.invalidRange low c)
      else .ok { ranges := (low, c) :: ranges, first := false, inRange := false }

/-- Take in a character of a class, a closing bracket that ends the class apart. -/
def ClassState.add (state : ClassState) (c : Char) : Except GlobError ClassState :=
  if state.inRange then state.extend c
  else if c = '-' ∧ !state.first then .ok { state with inRange := true }
  else .ok { ranges := (c, c) :: state.ranges, first := false, inRange := false }

/-- The ranges of a finished class.  A hyphen at the end stands for itself. -/
def ClassState.finish (state : ClassState) : List (Char × Char) :=
  (if state.inRange then ('-', '-') :: state.ranges else state.ranges).reverse

/-- Read a class up to its closing bracket; one that comes first stands for itself. -/
def readClass (state : ClassState) :
    List Char → Except GlobError (List (Char × Char) × List Char)
  | [] => .error .unclosedClass
  | c :: rest =>
      if c = ']' ∧ !state.first then .ok (state.finish, rest)
      else
        match state.add c with
        | .error error => .error error
        | .ok next => readClass next rest

theorem readClass_length_le
    {state : ClassState} {text rest : List Char} {ranges : List (Char × Char)}
    (h : readClass state text = .ok (ranges, rest)) :
    rest.length ≤ text.length := by
  induction text generalizing state with
  | nil => cases h
  | cons c text ih =>
      rw [readClass] at h
      split at h
      · cases h
        simp
      · split at h
        · cases h
        · exact Nat.le_succ_of_le (ih h)

/-! ## Patterns -/

/-- A group of alternatives that is still open. -/
structure Group where
  /-- The finished alternatives, last first. -/
  finished : List (List Token)
  /-- The pieces before the group, last first. -/
  before : List Token

/-- What has been read of a pattern. -/
structure State where
  /-- The pieces of the current alternative, last first. -/
  current : List Token
  /-- The open groups, innermost first. -/
  groups : List Group

namespace State

/-- Add a piece. -/
def push (state : State) (token : Token) : State :=
  { state with current := token :: state.current }

/-- Add two single stars. -/
def pushStars (state : State) : State :=
  (state.push .star).push .star

/-- Put a `**` in place of the slash before it, unless it only repeats one. -/
def replaceLast (state : State) (token : Token) : State :=
  match state.current with
  | [] => state.push token
  | .leadingDirs :: _ => state
  | .trailingDirs :: _ => state
  | _ :: rest => { state with current := token :: rest }

/-- Open a group. -/
def openGroup (state : State) : State :=
  { current := [], groups := { finished := [], before := state.current } :: state.groups }

/-- Take in a comma: it divides alternatives inside a group only. -/
def comma (state : State) : State :=
  match state.groups with
  | [] => state.push (.literal ',')
  | group :: groups =>
      { current := []
        groups :=
          { group with finished := state.current.reverse :: group.finished } :: groups }

/-- Close a group. -/
def closeGroup (state : State) : Except GlobError State :=
  match state.groups with
  | [] => .error .unopenedAlternates
  | group :: groups =>
      let branches := (state.current.reverse :: group.finished).reverse
      .ok { current := .alternates branches :: group.before, groups }

/-- Whether a `**` after a given character may stand for directories. -/
def segmentStart (state : State) (previous : Option Char) : Bool :=
  previous == some '/' ||
    (!state.groups.isEmpty && (previous == some ',' || previous == some '\x7b'))

end State

/-- Read a pattern from a place after a given character. -/
def readPattern (previous : Option Char) (state : State) :
    List Char → Except GlobError State
  | [] => .ok state
  | '?' :: rest => readPattern (some '?') (state.push .any) rest
  | '*' :: '*' :: rest =>
      if state.current.isEmpty then
        match rest with
        | [] => .ok (state.push .leadingDirs)
        | '/' :: rest => readPattern (some '/') (state.push .leadingDirs) rest
        | c :: rest => readPattern (some '*') state.pushStars (c :: rest)
      else if state.segmentStart previous then
        match rest with
        | [] => .ok (state.replaceLast .trailingDirs)
        | '/' :: rest => readPattern (some '/') (state.replaceLast .middleDirs) rest
        | c :: rest =>
            if !state.groups.isEmpty && (c == ',' || c == '\x7d') then
              readPattern (some '*') (state.replaceLast .trailingDirs) (c :: rest)
            else
              readPattern (some '*') state.pushStars (c :: rest)
      else
        readPattern (some '*') state.pushStars rest
  | '*' :: rest => readPattern (some '*') (state.push .star) rest
  | '[' :: rest =>
      let negated := rest.head? == some '!' || rest.head? == some '^'
      let inside := if negated then rest.tail else rest
      match hread : readClass { ranges := [], first := true, inRange := false } inside with
      | .error error => .error error
      | .ok (ranges, after) =>
          have : after.length < rest.length + 1 := by
            have hle := readClass_length_le hread
            have htail : inside.length ≤ rest.length := by
              simp only [inside]
              split <;> simp
            omega
          readPattern (some ']') (state.push (.charClass negated ranges)) after
  | '\x7b' :: rest => readPattern (some '\x7b') state.openGroup rest
  | '\x7d' :: rest =>
      match state.closeGroup with
      | .error error => .error error
      | .ok next => readPattern (some '\x7d') next rest
  | ',' :: rest => readPattern (some ',') state.comma rest
  | ['\\'] => .error .danglingEscape
  | '\\' :: c :: rest => readPattern (some c) (state.push (.literal c)) rest
  | c :: rest => readPattern (some c) (state.push (.literal c)) rest
termination_by text => text.length

/-- The pieces of a pattern. -/
def parse (pattern : String) : Except GlobError (List Token) :=
  match readPattern none { current := [], groups := [] } pattern.toList with
  | .error error => .error error
  | .ok state =>
      if state.groups.isEmpty then .ok state.current.reverse
      else .error .unclosedAlternates

end HandlerLint.Glob
