/-!
# The statement model

A file is a list of statements, of which the model keeps only what decides
whether an exception handler hides the exception: where the try constructs are,
which handlers they have, which statements stand directly in a handler, and which
of those throw.
-/

namespace HandlerLint

/-- A stretch of source: byte offsets from zero with an exclusive end, lines and
columns from one. -/
structure Span where
  startByte : Nat
  endByte : Nat
  startLine : Nat
  startCol : Nat
  endLine : Nat
  endCol : Nat
deriving DecidableEq, Repr, Inhabited

/-- A span as a line and a column, the way diagnostics show it. -/
def Span.position (span : Span) : String :=
  toString span.startLine ++ ":" ++ toString span.startCol

mutual

/-- A statement and where it stands. -/
inductive Statement where
  /-- Raises the caught exception again, unchanged. -/
  | rethrow (span : Span)
  /-- Raises a new or changed exception. -/
  | throw (span : Span)
  /-- An expression statement that is a rethrow. -/
  | expressionRethrow (span : Span)
  /-- An expression statement that is a throw. -/
  | expressionThrow (span : Span)
  /-- Any other expression statement, with the statements inside it. -/
  | expression (span : Span) (children : List Statement)
  /-- A try construct. -/
  | attempt (construct : TryConstruct)
  /-- Anything else, with the statements inside it. -/
  | other (span : Span) (kind : String) (children : List Statement)

/-- A guarded block and its handlers. -/
structure TryConstruct where
  span : Span
  body : List Statement
  /-- The handlers in source order. -/
  handlers : List HandlerClause
  /-- The block that runs when nothing was raised. -/
  orelse : Option (List Statement)
  /-- The block that runs in any case. -/
  finalizer : Option (List Statement)

/-- One handler of a try construct. -/
structure HandlerClause where
  span : Span
  /-- The exception types as written; none for a handler of everything. -/
  types : List String
  /-- The name the caught exception is bound to. -/
  binding : Option String
  /-- The direct statements, or `none` where no body could be recovered. -/
  body : Option (List Statement)

end

instance : Inhabited Statement := ⟨.throw default⟩

/-- One source file as statements. -/
structure SyntaxTree where
  path : String
  language : String
  statements : List Statement
  /-- Whether the source has syntax errors. -/
  hasParseErrors : Bool

/-- Where a statement stands. -/
def Statement.span : Statement → Span
  | .rethrow span => span
  | .throw span => span
  | .expressionRethrow span => span
  | .expressionThrow span => span
  | .expression span _ => span
  | .attempt construct => construct.span
  | .other span _ _ => span

/-- The statements directly inside a statement.  Those of a try construct are
reached through the construct. -/
def Statement.nested : Statement → List Statement
  | .expression _ children => children
  | .other _ _ children => children
  | _ => []

/-- A construct whose parts are still to be filled in. -/
def TryConstruct.blank (span : Span) : TryConstruct :=
  { span, body := [], handlers := [], orelse := none, finalizer := none }

/-- Whether a handler's body is known and has no statement. -/
def HandlerClause.isEmpty (clause : HandlerClause) : Bool :=
  match clause.body with
  | some statements => statements.isEmpty
  | none => false

end HandlerLint
