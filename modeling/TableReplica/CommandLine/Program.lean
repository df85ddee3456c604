import TableReplica.CommandLine.Arguments
import TableReplica.CommandLine.Report
import TableReplica.Config
import TableReplica.Files.Directories

/-!
# Running the program

A run takes what the machine offers and ends with an exit code, what was printed and the files. To
apply a changeset the program loads its configuration, makes the directory, opens its input, works
out the deadline and then applies; the first of these that fails ends it. The clock counts seconds
in 64 bits of two's complement; a deadline that does not fit aborts the program.

A run is taken to be over when its ending is known. Left out is a process that stays alive after
that because a read of its standard input, which somebody holds open, has not come back.
-/

namespace TableReplica.CommandLine

open Apply Files Transport Wire

/-- What a run finds. -/
structure Machine where
  files : FileSystem
  workingDirectory : Location
  standardInput : Connection
  /-- The environment variable for the number of changesets to keep, if it is set. -/
  retentionVariable? : Option Bytes := none
  /-- The seconds that the clock shows. -/
  clock : Nat := 0

/-- How a run ends. -/
structure Ending where
  exitCode : Nat
  /-- What is printed to standard output. -/
  output : String := ""
  /-- What is reported as an error. -/
  report? : Option Report := none
  files : FileSystem

/-- The seconds that a clock can show stay below this bound. -/
def clockBound : Nat := wordBound / 2

/-- The exit code of a program that was aborted. -/
def abortCode : Nat := 101

/-- The text that answers a question for the version. -/
def versionText : String := "tablerepl 0.1.0\n"

/-- The text that answers a call for help. -/
def helpText : String :=
  "Apply replication changesets to a replica's table files\n\n" ++
    "Usage: tablerepl [OPTIONS] <COMMAND>\n\n" ++
    "Commands:\n" ++
    "  apply  Apply one changeset to a replica directory\n" ++
    "  check  Exit successfully if REVISION has reached TARGET\n" ++
    "  help   Print this message or the help of the given subcommand(s)\n\n" ++
    "Options:\n" ++
    "  -v, --verbose...  Verbosity level (-v, -vv, -vvv)\n" ++
    "  -q, --quiet       Only log errors\n" ++
    "  -h, --help        Print help\n" ++
    "  -V, --version     Print version\n"

/-- The configuration that the arguments ask for. -/
def loadConfig (machine : Machine) (arguments : ApplyArguments) : Except ReplicaError Config := do
  let config ← match arguments.config? with
    | some text => Config.load (.ofText machine.workingDirectory text) machine.files
    | none => pure {}
  match arguments.maxChangesets? with
  | some count => return config.withMaxChangesets count
  | none => return config

/-- Open a file as input. A directory can be opened, but no read of it succeeds. -/
def openInput (fs : FileSystem) (path : Path) : Except Refusal (Feed × FileSystem) :=
  match fs.openForReading path with
  | .ok opened => .ok (.ofFile, opened)
  | .error .isDirectory => .ok (.ofConnection [.fault Refusal.isDirectory.message], fs)
  | .error refusal => .error refusal

/-- Apply a changeset to a directory that has been made, from an input that has been opened. -/
def applyInput (arguments : ApplyArguments) (config : Config) (directory : Path)
    (input : Feed) (files : FileSystem) : Ending :=
  let revisions := match arguments.trustedRevision? with
    | some revision => RevisionReader.fixed revision
    | none => RevisionReader.unknown
  let replicator : Replicator := { directory, config, revisions }
  let outcome := replicator.applyFeed arguments.trustedRevision?.isSome input files
  match outcome.result with
  | .ok applied =>
    let summary := if arguments.json then summaryJson applied else summaryLine applied
    { exitCode := 0, output := summary ++ "\n", files := outcome.files }
  | .error failure =>
    let headline := "Failed to apply changeset to " ++ directory.text
    { exitCode := 1
      report? := some (.ofError headline failure.error)
      files := outcome.files }

/-- Run the command that applies a changeset. -/
def runApply (machine : Machine) (arguments : ApplyArguments) : Ending :=
  match loadConfig machine arguments with
  | .error error =>
    { exitCode := 1, report? := some { headline := error.message }, files := machine.files }
  | .ok config =>
    let directory := Path.ofText machine.workingDirectory arguments.directory
    match machine.files.makeDirectories directory with
    | (.error refusal, files) =>
      let headline := "Failed to create " ++ directory.text
      { exitCode := 1, report? := some { headline, causes := [refusal.message] }, files }
    | (.ok (), files) =>
      let input := match arguments.input? with
        | some text => openInput files (.ofText machine.workingDirectory text)
        | none => .ok (.ofConnection machine.standardInput, files)
      match input with
      | .error refusal =>
        let headline := "Failed to open changeset " ++ arguments.input?.getD ""
        { exitCode := 1, report? := some { headline, causes := [refusal.message] }, files }
      | .ok (input, opened) =>
        if clockBound ≤ machine.clock + arguments.timeout then
          { exitCode := abortCode
            report? := some { headline := "the deadline is out of the range of the clock" }
            files }
        else applyInput arguments config directory input opened

/-- Run the command that compares two revisions. -/
def runCheck (machine : Machine) (revision target : Nat) : Ending :=
  match hasReached (encodeRevision revision) (encodeRevision target) with
  | .error error =>
    { exitCode := 1
      report? := some { headline := error.message, causes := error.cause?.toList }
      files := machine.files }
  | .ok true =>
    { exitCode := 0
      output := s!"revision {revision} has reached {target}\n"
      files := machine.files }
  | .ok false =>
    { exitCode := 1
      output := s!"revision {revision} is behind {target}\n"
      files := machine.files }

/-- Run the program. -/
def run (machine : Machine) (arguments : List String) : Ending :=
  match parse machine.retentionVariable? arguments with
  | .ok { command := .apply arguments, .. } => runApply machine arguments
  | .ok { command := .check revision target, .. } => runCheck machine revision target
  | .error error =>
    let output := match error with
      | .help => helpText
      | .version => versionText
      | _ => ""
    { exitCode := error.exitCode, output, report? := error.report?, files := machine.files }

end TableReplica.CommandLine
