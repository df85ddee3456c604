import TableReplica.Apply.Replicator
import TableReplica.CommandLine.Grammar

/-!
# What the program prints

A failed command prints a headline and, below it, what caused it, each cause indented and numbered
if there are several. A changeset that was applied is summed up in one line or as a JSON object.
-/

namespace TableReplica.CommandLine

open Apply

/-- A failure as it is reported: a headline and its causes, the nearest first. -/
structure Report where
  headline : String
  causes : List String := []
  deriving Repr, DecidableEq

namespace Report

/-- Characters with every line after the first indented by `margin`. -/
def indentLines (margin : List Char) : List Char → List Char
  | [] => []
  | '\n' :: rest => '\n' :: margin ++ indentLines margin rest
  | c :: rest => c :: indentLines margin rest

/-- A text in a paragraph of its own, after `lead`. -/
def paragraph (lead margin text : String) : String :=
  "\n" ++ lead ++ String.ofList (indentLines margin.toList text.toList)

/-- A number in a column of five. -/
def column (number : Nat) : String :=
  let digits := toString number
  "".pushn ' ' (5 - digits.length) ++ digits

/-- The causes of a report, from a number on. -/
def numbered (number : Nat) : List String → String
  | [] => ""
  | cause :: rest =>
    paragraph (column number ++ ": ") "       " cause ++ numbered (number + 1) rest

/-- The text of a report. -/
def text (report : Report) : String :=
  match report.causes with
  | [] => report.headline
  | [cause] => report.headline ++ "\n\nCaused by:" ++ paragraph "    " "    " cause
  | causes => report.headline ++ "\n\nCaused by:" ++ numbered 0 causes

/-- The report of an error that ended something. -/
def ofError (headline : String) (error : ReplicaError) : Report :=
  { headline, causes := error.message :: error.cause?.toList }

end Report

/-- What is reported of a command line that leads to no command. -/
def UsageError.report? (error : UsageError) : Option Report :=
  (fun headline => { headline }) <$>
    match error with
    | .help => none
    | .version => none
    | .nothingGiven => some "a command is required"
    | .missingArgument => some "a required argument is missing"
    | .missingSubcommand => some "a command is required"
    | .unknownSubcommand => some "there is no such command"
    | .unknownArgument => some "an argument was not expected"
    | .emptyValue => some "an argument needs a value"
    | .invalidValue => some "the value of an argument is not valid"
    | .undecodableValue => some "the value of an argument is not valid UTF-8"
    | .repeatedArgument => some "an argument was given more than once"
    | .unexpectedValue => some "an argument takes no value"

/-- The line that sums up an applied changeset. -/
def summaryLine (applied : Applied) : String :=
  let encoded := Bytes.toHex applied.encodedRequiredRevision
  s!"applied {applied.startRevision} -> {applied.endRevision}, " ++
    s!"required revision {applied.requiredRevision} ({encoded})"

/-- A JSON object with the given indented members. -/
def jsonObject (margin : String) (members : List (String × String)) : String :=
  let lines := members.map fun (name, value) => margin ++ "  \"" ++ name ++ "\": " ++ value
  "\x7b\n" ++ ",\n".intercalate lines ++ "\n" ++ margin ++ "\x7d"

/-- The JSON object that sums up an applied changeset. -/
def summaryJson (applied : Applied) : String :=
  jsonObject ""
    [("start_revision", toString applied.startRevision),
      ("end_revision", toString applied.endRevision),
      ("required_revision", toString applied.requiredRevision),
      ("stats", jsonObject "  "
        [("base_files", toString applied.stats.baseFiles),
          ("blocks_written", toString applied.stats.blocksWritten),
          ("bytes_consumed", toString applied.stats.bytesConsumed),
          ("bytes_archived", toString applied.stats.bytesArchived)])]

end TableReplica.CommandLine
