/-!
# File errors

Why an operation on files does not succeed, with the words and numbers the operating
system has for it.

Most errors come of what stands where.  Apart from these, the system may refuse to make
something at a place, or to have a file there written to, for reasons of its own.  It is not
asked for permission to read.
-/

namespace HandlerLint.Files

/-- Why the system refuses to have something made or written. -/
inductive Refusal where
  | nameTooLong
  | permissionDenied
  | readOnly
  | noSpace
deriving DecidableEq, Repr

/-- What is said of a refusal. -/
def Refusal.message : Refusal → String
  | .nameTooLong => "File name too long (os error 36)"
  | .permissionDenied => "Permission denied (os error 13)"
  | .readOnly => "Read-only file system (os error 30)"
  | .noSpace => "No space left on device (os error 28)"

/-- Why an operation on files does not succeed. -/
inductive FileError where
  /-- A path names nothing. -/
  | notFound
  /-- Something stands where it should be created. -/
  | alreadyExists
  /-- A path goes on below something that is no directory. -/
  | notADirectory
  /-- A directory stands where a file is needed. -/
  | isADirectory
  /-- Too many links follow one another. -/
  | tooManyLinks
  /-- The bytes of a file are no text. -/
  | notText
  /-- The system refuses it. -/
  | refused (refusal : Refusal)
deriving DecidableEq, Repr

/-- What is said of a file error. -/
def FileError.message : FileError → String
  | .notFound => "No such file or directory (os error 2)"
  | .alreadyExists => "File exists (os error 17)"
  | .notADirectory => "Not a directory (os error 20)"
  | .isADirectory => "Is a directory (os error 21)"
  | .tooManyLinks => "Too many levels of symbolic links (os error 40)"
  | .notText => "stream did not contain valid UTF-8"
  | .refused refusal => refusal.message

end HandlerLint.Files
