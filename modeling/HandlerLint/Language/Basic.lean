import HandlerLint.Path.Component

/-!
# Languages

The source languages the linter reads, and how a file's language is told from its
name.
-/

namespace HandlerLint

/-- A source language. -/
inductive Language where
  | cpp
  | java
  | javascript
  | python
  | tsx
  | typescript
deriving DecidableEq, Repr, Inhabited

namespace Language

/-- Every language, in the order of the identifiers. -/
def all : List Language :=
  [.cpp, .java, .javascript, .python, .tsx, .typescript]

/-- The identifier of a language. -/
def id : Language → String
  | .cpp => "cpp"
  | .java => "java"
  | .javascript => "javascript"
  | .python => "python"
  | .tsx => "tsx"
  | .typescript => "typescript"

/-- The file extensions of a language, without a dot. -/
def extensions : Language → List String
  | .cpp => ["cpp", "cc", "cxx", "hpp", "hh", "hxx"]
  | .java => ["java"]
  | .javascript => ["js", "jsx", "mjs", "cjs"]
  | .python => ["py", "pyi"]
  | .tsx => ["tsx"]
  | .typescript => ["ts", "mts", "cts"]

/-- Whether an extension, written without a dot, belongs to a language. -/
def handlesExtension
    (language : Language) (extension : String) : Bool :=
  language.extensions.contains extension

/-- The language with a given identifier. -/
def ofId? (identifier : String) : Option Language :=
  all.find? (·.id == identifier)

/-- The language of an extension, written with or without leading dots. -/
def ofExtension? (extension : String) : Option Language :=
  let bare := String.ofList (extension.toList.dropWhile (· == '.'))
  all.find? (·.handlesExtension bare)

/-- The language of a file, told from the extension of its path. -/
def ofPath? (path : String) : Option Language :=
  (Path.extension? path.toList).bind fun extension =>
    ofExtension? (String.ofList extension)

end Language

end HandlerLint
