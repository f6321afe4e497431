import HandlerLint.Files.System
import HandlerLint.Path.Component
import HandlerLint.Text.Utf8

/-!
# Working with paths

A path is followed name by name from the root or from the working directory.  A link on
the way is replaced by its target; at most forty links are followed for one path.  Any
name after something that is no directory, even `.` or nothing after a last slash, is an
error.

Operations that change files give back the changed workspace also where they fail.  The
system may refuse to have something made or written at a location; which locations these are
does not change while the program runs.  Where nothing else is said, it refuses the names
that are too long.

Left out are a disk that runs full while a file is written, so that a write that is let begin
ends well, the bound on the length of a whole path, and the permission to read: whatever
stands somewhere can be followed and read, and a name that is too long is missing like any
other.
-/

namespace HandlerLint.Files

open HandlerLint.Text

/-- The most bytes that a name can have. -/
def nameLimit : Nat :=
  255

/-- The refusal of a location because its name is too long. -/
def nameRefusal? (location : Location) : Option Refusal :=
  if location.getLast?.any (nameLimit < ·.utf8ByteSize) then some .nameTooLong else none

/-- A file system and the directory that relative paths start from. -/
structure Workspace where
  files : FileSystem
  base : Location
  /-- Why the system refuses to have something made or written at a location. -/
  refusal? : Location → Option Refusal := nameRefusal?

/-- What a path is followed for. -/
inductive Purpose where
  /-- To find what it names. -/
  | finding
  /-- To write a file there.  A last slash asks for a directory instead. -/
  | writing
  /-- To make a directory there.  A link at the end is not followed. -/
  | making
deriving DecidableEq, Repr

/-- What a path leads to. -/
inductive Target where
  /-- Something stands there. -/
  | taken (location : Location)
  /-- Nothing stands there, but the directory it would stand in exists. -/
  | vacant (directory : Location) (name : String)
deriving DecidableEq, Repr

/-- The names between the slashes of a path. -/
def segments (path : String) : List String :=
  (splitOn '/' path.toList).map String.ofList

/-- Whether a path starts at the root. -/
def isAbsolute (path : String) : Bool :=
  path.toList.head? == some '/'

/-- How many links are followed for one path. -/
def linkLimit : Nat :=
  40

/-- Follow some names from a directory. -/
def FileSystem.follow (files : FileSystem) (purpose : Purpose) :
    Nat → Location → List String → Except FileError Target
  | _, here, [] => .ok (.taken here)
  | links, here, name :: rest =>
      if files.get? here ≠ some .directory then .error .notADirectory
      else if name = "" ∨ name = "." then files.follow purpose links here rest
      else if name = ".." then files.follow purpose links here.dropLast rest
      else
        let isLast := rest.all (· == "")
        if purpose = .writing ∧ isLast ∧ rest ≠ [] then .error .isADirectory
        else
          match files.get? (here ++ [name]) with
          | none => if isLast then .ok (.vacant here name) else .error .notFound
          | some (.link target) =>
              if purpose = .making ∧ isLast then .ok (.taken (here ++ [name]))
              else
                match links with
                | 0 => .error .tooManyLinks
                | links + 1 =>
                    files.follow purpose links (if isAbsolute target then [] else here)
                      (segments target ++ rest)
          | some _ => files.follow purpose links (here ++ [name]) rest
termination_by links _ names => (links, names.length)

/-- The path that leads to a location from the root. -/
def Location.path (location : Location) : String :=
  "/" ++ "/".intercalate location

namespace Workspace

/-- What a path leads to.  The empty path leads nowhere. -/
def target (workspace : Workspace) (purpose : Purpose) (path : String) :
    Except FileError Target :=
  if path = "" then .error .notFound
  else
    workspace.files.follow purpose linkLimit
      (if isAbsolute path then [] else workspace.base) (segments path)

/-- The location of what a path names. -/
def resolve (workspace : Workspace) (path : String) : Except FileError Location := do
  match ← workspace.target .finding path with
  | .taken location => return location
  | .vacant _ _ => throw .notFound

/-- What a path names, its links followed. -/
def find? (workspace : Workspace) (path : String) : Option Entry :=
  match workspace.resolve path with
  | .ok location => workspace.files.get? location
  | .error _ => none

/-- Whether a path names something. -/
def isPresent (workspace : Workspace) (path : String) : Bool :=
  (workspace.find? path).isSome

/-- Whether a path names a directory. -/
def isDirectory (workspace : Workspace) (path : String) : Bool :=
  workspace.find? path == some .directory

/-- Whether a path names a file. -/
def isFile (workspace : Workspace) (path : String) : Bool :=
  match workspace.find? path with
  | some (.file _) => true
  | _ => false

/-- The bytes of the file that a path names. -/
def read (workspace : Workspace) (path : String) : Except FileError (List UInt8) := do
  match workspace.files.get? (← workspace.resolve path) with
  | some (.file bytes) => return bytes
  | some .directory => throw .isADirectory
  | _ => throw .notFound

/-- The workspace with an entry put into a directory. -/
def insert
    (workspace : Workspace) (directory : Location) (name : String) (entry : Entry) :
    Workspace :=
  { workspace with files := workspace.files.insert (directory ++ [name]) entry }

/-- A changed workspace, unless the system refuses the change at a location. -/
def permit
    (workspace : Workspace) (location : Location) (changed : Workspace) :
    Except FileError Workspace :=
  match workspace.refusal? location with
  | some refusal => .error (.refused refusal)
  | none => .ok changed

/-- Make a directory in an existing one. -/
def makeDirectory (workspace : Workspace) (path : String) : Except FileError Workspace := do
  match ← workspace.target .making path with
  | .taken _ => throw .alreadyExists
  | .vacant directory name =>
      workspace.permit (directory ++ [name]) (workspace.insert directory name .directory)

/-- Make the first of some paths a directory, each path being followed by its parent:
where the parent is missing, it is made first.  A directory that exists is fine. -/
def makeAll : List String → Workspace → Workspace × Option FileError
  | [], workspace => (workspace, none)
  | path :: parents, workspace =>
      let tolerate (workspace : Workspace) (cause : FileError) :=
        if workspace.isDirectory path then (workspace, none) else (workspace, some cause)
      if path = "" then (workspace, none)
      else
        match workspace.makeDirectory path with
        | .ok made => (made, none)
        | .error .notFound =>
            match makeAll parents workspace with
            | (made, some cause) => (made, some cause)
            | (made, none) =>
                match made.makeDirectory path with
                | .ok made => (made, none)
                | .error cause => tolerate made cause
        | .error cause => tolerate workspace cause

/-- Make a directory and every missing one above it. -/
def makeDirectories (workspace : Workspace) (path : String) : Workspace × Option FileError :=
  makeAll ((Path.ancestors path.toList).map String.ofList) workspace

/-- Write a file: a new one, or new content for one that exists. -/
def write
    (workspace : Workspace) (path : String) (bytes : List UInt8) :
    Except FileError Workspace := do
  match ← workspace.target .writing path with
  | .vacant directory name =>
      workspace.permit (directory ++ [name]) (workspace.insert directory name (.file bytes))
  | .taken location =>
      match workspace.files.get? location with
      | some (.file _) =>
          workspace.permit location
            { workspace with files := workspace.files.overwrite location bytes }
      | _ => throw .isADirectory

/-- Put an entry at a path, with the directories above it.  What cannot be put there is
left out. -/
def put (workspace : Workspace) (path : String) (entry : Entry) : Workspace :=
  let made :=
    match Path.parent? path.toList with
    | some parent => (workspace.makeDirectories (String.ofList parent)).1
    | none => workspace
  match entry with
  | .file bytes => (made.write path bytes).toOption.getD made
  | .directory => (made.makeDirectories path).1
  | .link _ =>
      match made.target .making path with
      | .ok (.vacant directory name) => made.insert directory name entry
      | _ => made

/-- The workspace with nothing but a working directory. -/
def blank (base : Location) : Workspace :=
  { ({ files := .empty, base := [] } : Workspace).put base.path .directory with base }

/-- The workspace with some entries, put there one after another. -/
def ofEntries (base : Location) (entries : List (String × Entry)) : Workspace :=
  entries.foldl (fun workspace (path, entry) => workspace.put path entry) (blank base)

end Workspace

end HandlerLint.Files
