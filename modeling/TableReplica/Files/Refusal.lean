/-!
# Refusals of the file system

The ways in which an operation on files can fail, each with its text and, unless the path could not
even be handed over, its number.
-/

namespace TableReplica.Files

/-- Why the file system refuses an operation. -/
inductive Refusal where
  | notFound
  | busy
  | alreadyExists
  | notDirectory
  | isDirectory
  | invalid
  | nameTooLong
  | notEmpty
  /-- The path holds a zero character, which no path may hold. -/
  | zeroInPath
  deriving Repr, DecidableEq

namespace Refusal

/-- The number of a refusal. A path that cannot be handed over is refused without a number. -/
def code? : Refusal → Option Nat
  | notFound => some 2
  | busy => some 16
  | alreadyExists => some 17
  | notDirectory => some 20
  | isDirectory => some 21
  | invalid => some 22
  | nameTooLong => some 36
  | notEmpty => some 39
  | zeroInPath => none

/-- What a refusal is about. -/
def description : Refusal → String
  | notFound => "No such file or directory"
  | busy => "Device or resource busy"
  | alreadyExists => "File exists"
  | notDirectory => "Not a directory"
  | isDirectory => "Is a directory"
  | invalid => "Invalid argument"
  | nameTooLong => "File name too long"
  | notEmpty => "Directory not empty"
  | zeroInPath => "file name contained an unexpected NUL byte"

/-- The text of a refusal, with its number if it has one. -/
def message (refusal : Refusal) : String :=
  match refusal.code? with
  | some code => refusal.description ++ " (os error " ++ toString code ++ ")"
  | none => refusal.description

end Refusal

end TableReplica.Files
