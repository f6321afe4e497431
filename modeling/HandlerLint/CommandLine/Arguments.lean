/-!
# Command-line arguments

    swallowcheck [-v] lint PATH [-c FILE] [-f FORMAT] [--show-suppressed] [-v]
    swallowcheck [-v] init [-o FILE] [-v]
    swallowcheck help [COMMAND]

An argument is a command, an option or a word.  Options come long, with their value after
an equals sign or as the next argument, or short, where several may stand together and a
value may follow directly.  After `--` every argument is a word.

A value is looked at only when the argument after it has been recognised, so that an
unknown option is reported before a bad value that stands right before it.
-/

namespace HandlerLint.CommandLine

/-- How a report is written. -/
inductive Format where
  | pretty
  | json
  | sarif
deriving DecidableEq, Repr

/-- The name of a format. -/
def Format.name : Format → String
  | .pretty => "pretty"
  | .json => "json"
  | .sarif => "sarif"

/-- The format with a given name. -/
def Format.ofName? (name : String) : Option Format :=
  [Format.pretty, .json, .sarif].find? (·.name == name)

/-- What is linted, and how. -/
structure LintArguments where
  path : String
  config? : Option String
  format : Format
  showSuppressed : Bool
deriving DecidableEq, Repr

/-- A command with its arguments. -/
inductive Command where
  | lint (arguments : LintArguments)
  /-- Write a configuration file to a path. -/
  | init (output : String)
deriving DecidableEq, Repr

/-- Why some arguments are no command. -/
inductive UsageError where
  | displayHelp
  | displayVersion
  /-- No argument is given at all. -/
  | nothingGiven
  | missingCommand
  | unknownCommand
  | missingArgument
  | unknownArgument
  /-- A value is missing, empty or none of those allowed. -/
  | invalidValue
  /-- A switch is given a value. -/
  | unneededValue
  /-- An option is given twice. -/
  | repeatedOption
deriving DecidableEq, Repr

/-- The exit code after a usage error.  Help and version are no errors. -/
def UsageError.exitCode : UsageError → Nat
  | .displayHelp | .displayVersion => 0
  | _ => 2

/-- An option without a value. -/
inductive Switch where
  | help
  | version
  | verbose
  | showSuppressed
deriving DecidableEq, Repr

/-- Something with a value. -/
inductive Setting where
  | path
  | config
  | format
  | output
deriving DecidableEq, Repr

/-- An option. -/
inductive Flag where
  | switch (switch : Switch)
  | setting (setting : Setting)
deriving DecidableEq, Repr

/-- The place where arguments stand. -/
inductive Scope where
  /-- Before the command. -/
  | top
  | lint
  | init
deriving DecidableEq, Repr

/-- The long options of a scope. -/
def Scope.long? (scope : Scope) (name : String) : Option Flag :=
  match scope, name with
  | _, "help" => some (.switch .help)
  | _, "verbose" => some (.switch .verbose)
  | .top, "version" => some (.switch .version)
  | .lint, "config" => some (.setting .config)
  | .lint, "format" => some (.setting .format)
  | .lint, "show-suppressed" => some (.switch .showSuppressed)
  | .init, "output" => some (.setting .output)
  | _, _ => none

/-- The short options of a scope. -/
def Scope.short? (scope : Scope) (letter : Char) : Option Flag :=
  match scope, letter with
  | _, 'h' => some (.switch .help)
  | _, 'v' => some (.switch .verbose)
  | .top, 'V' => some (.switch .version)
  | .lint, 'c' => some (.setting .config)
  | .lint, 'f' => some (.setting .format)
  | .init, 'o' => some (.setting .output)
  | _, _ => none

/-- A word that starts a new scope. -/
inductive CommandName where
  | lint
  | init
  | help
deriving DecidableEq, Repr

/-- The commands of a scope, by name or alias. -/
def Scope.command? (scope : Scope) (word : String) : Option CommandName :=
  match scope, word with
  | .top, "lint" | .top, "check" => some .lint
  | .top, "init" => some .init
  | .top, "help" => some .help
  | _, _ => none

/-- Whether a value suits a setting. -/
def Setting.accepts (setting : Setting) (value : String) : Bool :=
  match setting with
  | .format => (Format.ofName? value).isSome
  | .path | .config | .output => value != ""

/-! ## Reading arguments -/

/-- What has been read of the arguments of a scope. -/
structure Reading where
  switches : List Switch
  settings : List (Setting × String)
  /-- A setting whose value, if already met, has not been looked at. -/
  pending : Option (Setting × Option String)
  /-- Whether the path has been met. -/
  hasPath : Bool
  /-- Whether only words follow. -/
  wordsOnly : Bool

namespace Reading

/-- Nothing read so far. -/
def start : Reading :=
  { switches := [], settings := [], pending := none, hasPath := false, wordsOnly := false }

/-- Whether the next argument is taken as a value. -/
def expectsValue (reading : Reading) : Bool :=
  match reading.pending with
  | some (_, none) => true
  | _ => false

/-- Give a setting its value. -/
def assign
    (reading : Reading) (setting : Setting) (value : String) : Except UsageError Reading :=
  if (reading.settings.lookup setting).isSome then .error .repeatedOption
  else if setting.accepts value then
    .ok { reading with settings := reading.settings ++ [(setting, value)] }
  else .error .invalidValue

/-- Look at the pending value. -/
def settle (reading : Reading) : Except UsageError Reading :=
  match reading.pending with
  | none => .ok reading
  | some (_, none) => .error .invalidValue
  | some (setting, some value) => { reading with pending := none }.assign setting value

/-- Read a switch. -/
def turnOn (reading : Reading) (switch : Switch) : Except UsageError Reading := do
  let reading ← reading.settle
  match switch with
  | .help => throw .displayHelp
  | .version => throw .displayVersion
  | .verbose | .showSuppressed =>
      if reading.switches.contains switch then throw .repeatedOption
      return { reading with switches := switch :: reading.switches }

/-- Read a setting, with its value where that is attached. -/
def set
    (reading : Reading) (setting : Setting) (attached : Option String) :
    Except UsageError Reading := do
  let reading ← reading.settle
  match attached with
  | some value => reading.assign setting value
  | none => return { reading with pending := some (setting, none) }

/-- Read a long option, from after its dashes. -/
def long (scope : Scope) (text : List Char) (reading : Reading) : Except UsageError Reading :=
  let name := String.ofList (text.takeWhile (· ≠ '='))
  let attached :=
    match text.dropWhile (· ≠ '=') with
    | _ :: value => some (String.ofList value)
    | [] => none
  match scope.long? name, attached with
  | some (.switch switch), none => reading.turnOn switch
  | some (.switch _), some _ => .error .unneededValue
  | some (.setting setting), _ => reading.set setting attached
  | none, _ => .error .unknownArgument

/-- What directly follows a short setting is its value, with or without an equals sign. -/
def attachedValue? : List Char → Option String
  | [] => none
  | '=' :: value => some (String.ofList value)
  | value => some (String.ofList value)

/-- Read some short options, from after their dash. -/
def short (scope : Scope) : List Char → Reading → Except UsageError Reading
  | [], reading => .ok reading
  | letter :: rest, reading =>
      match scope.short? letter with
      | some (.switch switch) => do short scope rest (← reading.turnOn switch)
      | some (.setting setting) => reading.set setting (attachedValue? rest)
      | none => .error .unknownArgument

/-- Read a word: the path of `lint`.  No other word has a place. -/
def word (scope : Scope) (text : String) (reading : Reading) : Except UsageError Reading :=
  if scope = .lint ∧ !reading.hasPath then do
    let reading ← reading.settle
    return { reading with pending := some (.path, some text), hasPath := true }
  else if scope = .top ∧ !(reading.wordsOnly && (scope.command? text).isSome) then
    .error .unknownCommand
  else .error .unknownArgument

/-- Read an argument that is no command. -/
def argument (scope : Scope) (text : String) (reading : Reading) : Except UsageError Reading :=
  if reading.wordsOnly then reading.word scope text
  else
    match text.toList with
    | ['-', '-'] => .ok { reading with wordsOnly := true }
    | '-' :: '-' :: option => reading.long scope option
    | '-' :: letter :: letters => reading.short scope (letter :: letters)
    | _ =>
        match reading.pending with
        | some (setting, none) => .ok { reading with pending := some (setting, some text) }
        | _ => reading.word scope text

/-- The command that a word names, where a command may stand. -/
def command? (scope : Scope) (text : String) (reading : Reading) : Option CommandName :=
  if reading.wordsOnly || reading.expectsValue then none else scope.command? text

/-- Read the arguments of a scope, up to a command. -/
def read (scope : Scope) :
    List String → Reading → Except UsageError (Reading × Option (CommandName × List String))
  | [], reading => do return (← reading.settle, none)
  | text :: rest, reading =>
      match reading.command? scope text with
      | some command => .ok (reading, some (command, rest))
      | none => do read scope rest (← reading.argument scope text)

end Reading

/-! ## Commands -/

/-- The arguments of `help`: the name of a command, or none. -/
def help : List String → UsageError
  | [] => .displayHelp
  | [name] => if (Scope.top.command? name).isSome then .displayHelp else .unknownCommand
  | _ => .unknownCommand

/-- The command of the arguments of `lint`. -/
def lintCommand (reading : Reading) : Except UsageError Command :=
  match reading.settings.lookup .path with
  | none => .error .missingArgument
  | some path =>
      let format := (reading.settings.lookup .format).bind Format.ofName?
      .ok (.lint {
        path
        config? := reading.settings.lookup .config
        format := format.getD .pretty
        showSuppressed := reading.switches.contains .showSuppressed })

/-- The command of the arguments of `init`. -/
def initCommand (reading : Reading) : Command :=
  .init ((reading.settings.lookup .output).getD "swallowcheck.yaml")

/-- The command that some arguments ask for. -/
def Command.parse (arguments : List String) : Except UsageError Command := do
  let (top, command) ← Reading.start.read .top arguments
  match command with
  | some (.lint, rest) => lintCommand (← Reading.start.read .lint rest).1
  | some (.init, rest) => return initCommand (← Reading.start.read .init rest).1
  | some (.help, rest) => throw (help rest)
  | none => throw (if top.switches.isEmpty then .nothingGiven else .missingCommand)

end HandlerLint.CommandLine
