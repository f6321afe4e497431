import HandlerLint.Files.Workspace

/-!
# Walking through directories

A walk visits everything below a path, depth first, the names of each directory in
order.  Links are followed.  A link to a directory that the walk is in is a loop; the
walk ends there, as it does at a link that leads nowhere.

Which directories are entered is decided by name.  A directory that is not entered is
still looked at: its link, if it is one, has to lead somewhere and must not be a loop.

The walk ends because each followed link opens a directory that no open link has led
to, and every other step goes one name deeper.
-/

namespace HandlerLint.Files

/-- Why a walk does not get through. -/
inductive WalkError where
  /-- Nothing can be found at a path. -/
  | inaccessible (path : String) (cause : FileError)
  /-- A link at a path leads to a directory that the walk is in. -/
  | loop (path ancestor : String)
deriving DecidableEq, Repr

/-- What is said of a walk that does not get through. -/
def WalkError.message : WalkError → String
  | .inaccessible path cause => "IO error for operation on " ++ path ++ ": " ++ cause.message
  | .loop path ancestor =>
      "File system loop found: " ++ path ++ " points to an ancestor " ++ ancestor

/-- What lies behind a walk error. -/
def WalkError.cause? : WalkError → Option String
  | .inaccessible _ cause => some cause.message
  | .loop _ _ => none

/-- A directory that a walk is in: where it is, and the path the walk took. -/
structure OpenDirectory where
  location : Location
  path : String

/-- The path of a name in a directory. -/
def childPath (path name : String) : String :=
  String.ofList (Path.join path.toList name.toList)

theorem FileSystem.length_lt_depth_of_get?_snoc
    {files : FileSystem} {location : Location} {name : String} {entry : Entry}
    (h : files.get? (location ++ [name]) = some entry) :
    location.length < files.depth := by
  have := FileSystem.length_le_depth h
  simp only [List.length_append, List.length_cons, List.length_nil] at this
  omega

/-- The files below an open directory, by the paths the walk takes to them.  `enters`
says by name which directories are entered, and `fresh` holds the directories that no
open link has led to. -/
def Workspace.filesBelow
    (workspace : Workspace) (enters : String → Bool)
    (fresh : List Location) (outer : List OpenDirectory) (here : OpenDirectory) :
    Except WalkError (List String) := do
  let found ← (workspace.files.names here.location).mapM fun name =>
    let path := childPath here.path name
    match _hentry : workspace.files.get? (here.location ++ [name]) with
    | some .directory =>
        if enters name then
          workspace.filesBelow enters fresh (here :: outer)
            { location := here.location ++ [name], path }
        else .ok []
    | some (.file _) => .ok [path]
    | some (.link _) =>
        match workspace.resolve path with
        | .error cause => .error (.inaccessible path cause)
        | .ok location =>
            match workspace.files.get? location with
            | some .directory =>
                match (here :: outer).find? (·.location == location) with
                | some ancestor => .error (.loop path ancestor.path)
                | none =>
                    if _hfresh : enters name ∧ location ∈ fresh then
                      workspace.filesBelow enters (fresh.erase location) (here :: outer)
                        { location, path }
                    else .ok []
            | _ => .ok [path]
    | none => .ok []
  return found.flatten
termination_by (fresh.length, workspace.files.depth - here.location.length)
decreasing_by
  · apply Prod.Lex.right
    have := FileSystem.length_lt_depth_of_get?_snoc _hentry
    simp only [List.length_append, List.length_cons, List.length_nil]
    omega
  · apply Prod.Lex.left
    rw [List.length_erase_of_mem _hfresh.2]
    have := List.length_pos_of_mem _hfresh.2
    omega

/-- The files at and below a path, by the paths the walk takes to them. -/
def Workspace.walk
    (workspace : Workspace) (enters : String → Bool) (path : String) :
    Except WalkError (List String) :=
  match workspace.resolve path with
  | .error cause => .error (.inaccessible path cause)
  | .ok location =>
      match workspace.files.get? location with
      | some .directory =>
          workspace.filesBelow enters workspace.files.directories [] { location, path }
      | _ => .ok [path]

end HandlerLint.Files
