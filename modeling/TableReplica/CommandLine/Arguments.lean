import TableReplica.CommandLine.Grammar

/-!
# The commands of the program

The program applies a changeset to a directory, or compares two revisions. The options for the
amount of logging are taken before and after the name of the command; where both places give one,
the later place counts. The number of changesets to keep is taken from the environment if the option
for it is absent, and has to be a number there too.
-/

namespace TableReplica.CommandLine

/-- What the command that applies a changeset was given. -/
structure ApplyArguments where
  directory : String
  /-- The file to read the changeset from, instead of standard input. -/
  input? : Option String := none
  /-- The revision that the replica is known to be at. -/
  trustedRevision? : Option Nat := none
  /-- The seconds allowed for the whole changeset to arrive. -/
  timeout : Nat := 60
  /-- The number of raw changesets to keep. -/
  maxChangesets? : Option Int := none
  /-- The configuration file. -/
  config? : Option String := none
  /-- Whether the result is printed as JSON. -/
  json : Bool := false
  deriving Repr, DecidableEq

/-- A command. -/
inductive Command where
  | apply (arguments : ApplyArguments)
  | check (revision target : Nat)
  deriving Repr, DecidableEq

/-- A command with the amount of logging asked for. -/
structure Invocation where
  command : Command
  verbose : Nat
  quiet : Bool
  deriving Repr, DecidableEq

/-- The level that log lines have to reach. -/
def Invocation.logLevel (invocation : Invocation) : String :=
  if invocation.quiet then "error"
  else
    match invocation.verbose with
    | 0 => "info"
    | 1 => "debug"
    | _ => "trace"

/-- The options that are taken everywhere. -/
def commonOptions : List OptionSpec :=
  [{ name := "verbose", short := some 'v', effect := .count },
    { name := "quiet", short := some 'q', effect := .flag },
    { name := "help", short := some 'h', effect := .help }]

/-- What is taken before the name of a command. -/
def topGrammar : Grammar :=
  { options := commonOptions ++ [{ name := "version", short := some 'V', effect := .version }]
    subcommands := ["apply", "check", "help"] }

/-- What the command that applies a changeset takes. -/
def applyGrammar : Grammar :=
  { options := commonOptions ++
      [{ name := "input", short := some 'i', effect := .value .path },
        { name := "trusted-revision", effect := .value .unsigned },
        { name := "timeout", effect := .value .unsigned },
        { name := "max-changesets", effect := .value .signed, takesNegative := true },
        { name := "config", effect := .value .path },
        { name := "json", effect := .flag }]
    positionals := [("directory", .path)] }

/-- What the command that compares two revisions takes. -/
def checkGrammar : Grammar :=
  { options := commonOptions
    positionals := [("revision", .unsigned), ("target", .unsigned)] }

namespace Given

/-- A value that is a text. -/
def path? (given : Given) (name : String) : Option String :=
  match given.value? name with
  | some (.path text) => some text
  | _ => none

/-- A value that is an unsigned number. -/
def unsigned? (given : Given) (name : String) : Option Nat :=
  match given.value? name with
  | some (.unsigned number) => some number
  | _ => none

/-- A value that is a signed number. -/
def signed? (given : Given) (name : String) : Option Int :=
  match given.value? name with
  | some (.signed number) => some number
  | _ => none

/-- Take a value from the environment if there is none yet. -/
def orEnvironment (given : Given) (name : String) (kind : ValueKind) (setting? : Option Bytes) :
    Except UsageError Given :=
  match given.value? name, setting? with
  | none, some bytes =>
    match Text.decode? bytes with
    | some chars => given.addValue name kind (String.ofList chars)
    | none => .error .undecodableValue
  | _, _ => .ok given

end Given

/-- Read everything that a command without subcommands was given. -/
def readAll (grammar : Grammar) (arguments : List String) : Except UsageError Given := do
  let (progress, _) ← grammar.read {} arguments
  return (← progress.resolve).given

/-- Read the arguments of the command that applies a changeset. -/
def readApply (retentionVariable? : Option Bytes) (arguments : List String) :
    Except UsageError (Command × Given) := do
  let given ← readAll applyGrammar arguments
  let given ← given.orEnvironment "max-changesets" .signed retentionVariable?
  match given.path? "directory" with
  | none => throw .missingArgument
  | some directory =>
    let arguments : ApplyArguments :=
      { directory
        input? := given.path? "input"
        trustedRevision? := given.unsigned? "trusted-revision"
        timeout := (given.unsigned? "timeout").getD 60
        maxChangesets? := given.signed? "max-changesets"
        config? := given.path? "config"
        json := "json" ∈ given.flags }
    return (.apply arguments, given)

/-- Read the arguments of the command that compares two revisions. -/
def readCheck (arguments : List String) : Except UsageError (Command × Given) := do
  let given ← readAll checkGrammar arguments
  match given.unsigned? "revision", given.unsigned? "target" with
  | some revision, some target => return (.check revision target, given)
  | _, _ => throw .missingArgument

/-- The outcome of asking for help on a command. -/
def readHelp (arguments : List String) : UsageError :=
  match arguments with
  | [] => .help
  | [name] => if name ∈ topGrammar.subcommands then .help else .unknownSubcommand
  | _ => .unknownSubcommand

/-- The command that a command line asks for. -/
def parse (retentionVariable? : Option Bytes) (arguments : List String) :
    Except UsageError Invocation := do
  match ← topGrammar.read {} arguments with
  | (progress, none) =>
    let given := (← progress.resolve).given
    throw (if given.isEmpty then .nothingGiven else .missingSubcommand)
  | (progress, some (name, rest)) =>
    let (command, inner) ← match name with
      | "apply" => readApply retentionVariable? rest
      | "check" => readCheck rest
      | _ => .error (readHelp rest)
    let outer := progress.given
    return {
      command
      verbose := ((inner.count? "verbose").or (outer.count? "verbose")).getD 0
      quiet := "quiet" ∈ inner.flags || "quiet" ∈ outer.flags }

end TableReplica.CommandLine
