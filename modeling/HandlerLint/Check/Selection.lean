import HandlerLint.Config.Basic
import HandlerLint.Files.Traversal
import HandlerLint.Path.Relative

/-!
# Selecting files

Which files below a path are checked.  Hidden directories and those with the code of
others are not entered, nor are those with tests where tests are left out.  Of the files
met, those in a known language are kept unless a pattern of the configuration excludes
them or, where tests are left out, they have the name of a test.

Names are Unicode text, as everywhere in a file system here.  The name of a file that is no
text would count as empty in the test for names of tests; such names are left out.
-/

namespace HandlerLint.Config

open HandlerLint.Files
open HandlerLint.Text

/-- The names of directories that hold tests. -/
def testDirectories : List String :=
  ["test", "tests", "__tests__", "__test__", "testdata", "test_data"]

/-- Whether a file name is that of a test.  What counts as its stem ends at the first
dot. -/
def isTestName (name : List Char) : Bool :=
  let stem := name.takeWhile (· ≠ '.')
  "test_".toList.isPrefixOf stem || "_test".toList.isSuffixOf stem ||
    "_tests".toList.isSuffixOf stem || "Test".toList.isSuffixOf stem ||
    "Tests".toList.isSuffixOf stem || occursIn ".test.".toList name ||
    occursIn ".spec.".toList name

/-- Whether a directory is never entered: a hidden one, or one with the code of others. -/
def isSkipped (name : String) : Bool :=
  name.toList.head? == some '.' || name == "vendor" || name == "node_modules"

/-- Whether a directory is entered, by its name. -/
def enters (config : Config) (name : String) : Bool :=
  !isSkipped name && (config.includesTests || !testDirectories.contains name)

/-- Whether a file met below a root is kept. -/
def keeps (config : Config) (root path : String) : Bool :=
  let below := (Path.stripBase? root.toList path.toList).getD path.toList
  let name := (Path.fileName? path.toList).getD []
  (Language.ofPath? path).isSome && !config.excludes (String.ofList below) &&
    (config.includesTests || !isTestName name)

/-- The files at and below a root that are checked, in the order of the walk. -/
def select
    (config : Config) (workspace : Workspace) (root : String) :
    Except WalkError (List String) :=
  (workspace.walk config.enters root).map (·.filter (config.keeps root))

/-- The configuration file in a directory, if there is one. -/
def discover? (workspace : Workspace) (directory : String) : Option String :=
  (fileNames.map (childPath directory)).find? workspace.isFile

end HandlerLint.Config
