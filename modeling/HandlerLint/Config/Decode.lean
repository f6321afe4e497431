import HandlerLint.Config.Basic
import HandlerLint.Yaml.Document

/-!
# Configurations in YAML

A configuration is a mapping with the names of its fields as keys.  Keys that name no
field are passed over, and a field must not be given twice.  An empty document is the
empty configuration.

Where text is wanted, every scalar is taken as it is written.  Where a value may be left
out, a plain null leaves it out.
-/

namespace HandlerLint.Config

open HandlerLint.Yaml

/-- Whether a text spells null. -/
def isNullText (text : String) : Bool :=
  ["null", "Null", "NULL", "~"].contains text

/-- The truth value that a text spells. -/
def truthValue? (text : String) : Option Bool :=
  if ["true", "True", "TRUE"].contains text then some true
  else if ["false", "False", "FALSE"].contains text then some false
  else none

/-- The tag of null. -/
def nullTag : Tag :=
  Tag.ofText "tag:yaml.org,2002:null"

/-- The tag of truth values. -/
def truthTag : Tag :=
  Tag.ofText "tag:yaml.org,2002:bool"

/-- Whether a scalar is left out: nothing is written for it, not even quotes. -/
def isLeftOut (scalar : Scalar) : Bool :=
  scalar.style = .plain && scalar.text.isEmpty

variable (document : Document)

/-- The text of a scalar. -/
def textOf? (node : Node Nat) : Option String :=
  match document.follow node with
  | .scalar scalar => some scalar.text
  | _ => none

/-- The texts of a sequence of scalars.  A scalar that is left out stands for no text at
all. -/
def textsOf? (node : Node Nat) : Option (List String) :=
  match document.follow node with
  | .sequence items => items.mapM (textOf? document)
  | .scalar scalar => if isLeftOut scalar then some [] else none
  | _ => none

/-- A truth value.  It is written plain, or as a literal block with the tag of truth
values. -/
def truthOf? (node : Node Nat) : Option Bool :=
  match document.follow node with
  | .scalar scalar =>
      if scalar.style = .plain ∨ (scalar.style = .literal ∧ scalar.tag = some truthTag) then
        truthValue? scalar.text
      else none
  | _ => none

/-- A severity, by its name or as a local tag on a plain null. -/
def severityOf? (node : Node Nat) : Option Severity :=
  match document.follow node with
  | .scalar scalar =>
      match scalar.tag.bind Tag.localName? with
      | some name =>
          if scalar.style = .plain && (scalar.text.isEmpty || isNullText scalar.text) then
            Severity.ofName? name
          else none
      | none => Severity.ofName? scalar.text
  | _ => none

/-- A value that may be null.  A scalar with the tag of null has to spell null; with any
other tag, or between quotes, it is a value. -/
def optionally? {β : Type} (value? : Node Nat → Option β) (node : Node Nat) : Option (Option β) :=
  match document.follow node with
  | .scalar scalar =>
      if scalar.style ≠ .plain then (value? node).map some
      else if scalar.tag = none ∧ (scalar.text.isEmpty ∨ isNullText scalar.text) then some none
      else if scalar.tag = some nullTag then
        if isNullText scalar.text then some none else none
      else (value? node).map some
  | _ => (value? node).map some

/-- The value of a field, or what stands for it where it is not given. -/
def field?
    {β : Type} (entries : List (String × Node Nat))
    (name : String) (absent : β) (value? : Node Nat → Option β) : Option β :=
  match entries.filter (·.1 == name) with
  | [] => some absent
  | [(_, node)] => value? node
  | _ => none

/-- The configuration that some entries make. -/
def ofEntries? (entries : List (Node Nat × Node Nat)) : Option Config := do
  let entries ← entries.mapM fun (key, value) => (textOf? document key).map (·, value)
  return {
    version := ← field? entries "version" "" (textOf? document)
    severity? := ← field? entries "severity" none (optionally? document (severityOf? document))
    failOn? := ← field? entries "fail_on" none (optionally? document (severityOf? document))
    includeTestFiles? :=
      ← field? entries "include_test_files" none (optionally? document (truthOf? document))
    excludedPaths := ← field? entries "excluded_paths" [] (textsOf? document)
    languages := ← field? entries "languages" [] (textsOf? document) }

/-- The configuration that a document describes. -/
def ofDocument? : Option Config :=
  match document.follow document.root with
  | .mapping entries => ofEntries? document entries
  | .scalar scalar => if isLeftOut scalar then some empty else none
  | _ => none

/-- The configuration that a text describes. -/
def parse? (text : List Char) : Option Config :=
  match Document.parse? text with
  | .ok (some document) => ofDocument? document
  | .ok none => some empty
  | .error _ => none

/-- The configuration in the bytes of a file. -/
def ofBytes (path : String) (bytes : List UInt8) : Except ConfigError Config :=
  match Text.decode? bytes with
  | none => .error (.read path .notText)
  | some text =>
      match parse? text with
      | some config => .ok config
      | none => .error (.parse path)

end HandlerLint.Config
