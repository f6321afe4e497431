import HandlerLint.Files.Workspace
import HandlerLint.Json.Parse
import HandlerLint.Language.Basic
import HandlerLint.Source.Node

/-!
# Snapshots

The program is given what it works on as one JSON document: the working directory, the
entries below it and, for source files, their parse trees.

    { "directory": "/project",
      "entries": [
        { "path": "src" },
        { "path": "src/latest", "link": "v2" },
        { "path": "src/a.py", "text": "…", "tree": { "has_error": false, "rows": […] } },
        { "path": "src/b.py", "bytes": [255, 254] } ] }

A tree is given by its nodes in preorder, each as a row of its depth, kind, whether it is
named, whether it is missing, its field or null, first and last byte, and first and last
row and column.
-/

namespace HandlerLint.CommandLine

open HandlerLint.Files

/-- What the program works on. -/
structure Snapshot where
  workspace : Workspace
  /-- The parse trees of the sources, by language and content. -/
  trees : List (Language × List UInt8 × Source.Tree)

namespace Snapshot

/-- The parse tree of a source.  A source without one counts as empty. -/
def parser (snapshot : Snapshot) : Source.Parser Language := fun language bytes =>
  match snapshot.trees.find? fun (known, content, _) => known == language && content == bytes with
  | some (_, _, tree) => tree
  | none => { root := default, hasError := false }

/-- A row of a parse tree. -/
def row? (json : Json) : Option (Nat × Source.Label) := do
  match ← json.array? with
  | [depth, kind, named, missing, field, startByte, endByte, startRow, startCol, endRow,
      endCol] =>
      return (← depth.number?, {
        kind := ← kind.string?
        named := ← named.bool?
        missing := ← missing.bool?
        field := field.string?
        startByte := ← startByte.number?
        endByte := ← endByte.number?
        startRow := ← startRow.number?
        startCol := ← startCol.number?
        endRow := ← endRow.number?
        endCol := ← endCol.number? })
  | _ => none

/-- A parse tree. -/
def tree? (json : Json) : Option Source.Tree := do
  let rows ← (← (← json.member? "rows").array?).mapM row?
  return {
    root := ← Source.Node.ofRows? rows
    hasError := ← (← json.member? "has_error").bool? }

/-- A byte. -/
def byte? (json : Json) : Option UInt8 := do
  let value ← json.number?
  if value < 256 then some value.toUInt8 else none

/-- What an entry describes: a link, a file, or else a directory. -/
def entry? (json : Json) : Option Entry :=
  match json.member? "link", json.member? "text", json.member? "bytes" with
  | some target, _, _ => target.string?.map .link
  | none, some text, _ => text.string?.map fun text => .file (Text.encode text)
  | none, none, some bytes => do return .file (← (← bytes.array?).mapM byte?)
  | none, none, none => some .directory

/-- The path of an entry, what it describes and, where there is one, its parse tree. -/
def place? (json : Json) :
    Option ((String × Entry) × Option (Language × List UInt8 × Source.Tree)) := do
  let path ← (← json.member? "path").string?
  let entry ← entry? json
  match json.member? "tree", Language.ofPath? path, entry with
  | some tree, some language, .file bytes =>
      return ((path, entry), some (language, bytes, ← tree? tree))
  | _, _, _ => return ((path, entry), none)

/-- The snapshot that a document describes. -/
def ofJson? (json : Json) : Option Snapshot := do
  let directory ← (← json.member? "directory").string?
  let places ← (← (← json.member? "entries").array?).mapM place?
  let base := (segments directory).filter (· != "")
  return {
    workspace := .ofEntries base (places.map (·.1))
    trees := places.filterMap (·.2) }

/-- The snapshot that a text describes. -/
def parse? (text : String) : Option Snapshot :=
  (Json.parse? text).bind ofJson?

end Snapshot

/-- The entries that one workspace has and another one has not, by their paths. -/
def newEntries (before after : Workspace) : List (String × Entry) :=
  (after.files.entries.filter fun (location, entry) =>
    before.files.get? location != some entry).map
      fun (location, entry) => (location.path, entry)

end HandlerLint.CommandLine
