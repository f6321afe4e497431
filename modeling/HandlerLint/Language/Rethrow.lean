import HandlerLint.Language.Role

/-!
# Rethrows

A throw is a rethrow when it raises the exception that the innermost handler has
caught, unchanged.
-/

namespace HandlerLint.Language

open Source

/-- Whether a node is an identifier that is written like a bound name. -/
def isBoundName
    (source : List UInt8) (binding : Option String) (node : Node) : Bool :=
  match binding with
  | some name => node.kind == "identifier" && node.text source == name
  | none => false

/-- The operand of a throw. -/
def operand? (language : Language) (node : Node) : Option Node :=
  (language.significant node).head?.map Placed.node

/-- Whether a throw raises the exception bound to `binding` again.  In C++ only a
throw without operand does: `throw e` throws a copy.  In Python a throw with a
cause never does. -/
def isRethrow
    (language : Language) (source : List UInt8) (binding : Option String)
    (node : Node) : Bool :=
  match language with
  | .cpp => (language.operand? node).isNone
  | .python =>
      if node.children.any (·.kind == "from") then false
      else
        match language.operand? node with
        | none => true
        | some operand => isBoundName source binding operand
  | .java | .javascript | .tsx | .typescript =>
      match language.operand? node with
      | none => false
      | some operand => isBoundName source binding operand

end HandlerLint.Language
