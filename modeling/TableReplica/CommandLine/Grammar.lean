import TableReplica.Text.Integer
import TableReplica.Text.Utf8

/-!
# The grammar of command lines

A command takes options and positional values, and may have subcommands. Arguments are read from
left to right. An option that takes a value waits for the next argument unless the value is
attached; what it got is judged only when the next option or value turns up, or at the end, so an
argument that cannot be placed at all is reported first. After two dashes every argument is a
positional value.
-/

namespace TableReplica.CommandLine

/-- Why a command line does not lead to a command. -/
inductive UsageError where
  /-- Help was asked for. -/
  | help
  /-- The version was asked for. -/
  | version
  /-- Nothing was asked for. -/
  | nothingGiven
  | missingArgument
  | missingSubcommand
  | unknownSubcommand
  | unknownArgument
  /-- A value is missing, or empty where it must not be. -/
  | emptyValue
  /-- A value is not of the required form. -/
  | invalidValue
  /-- A value is not encoded as text. -/
  | undecodableValue
  | repeatedArgument
  | unexpectedValue
  deriving Repr, DecidableEq

/-- The exit code of a program that was called like this. -/
def UsageError.exitCode : UsageError → Nat
  | help => 0
  | version => 0
  | _ => 2

/-- The form of a value. -/
inductive ValueKind where
  /-- Any text but the empty one. -/
  | path
  /-- An unsigned number of 64 bits. -/
  | unsigned
  /-- A signed number of 64 bits. -/
  | signed
  deriving Repr, DecidableEq

/-- A value. -/
inductive Value where
  | path (text : String)
  | unsigned (number : Nat)
  | signed (number : Int)
  deriving Repr, DecidableEq

/-- The value that a text stands for. -/
def ValueKind.parse (kind : ValueKind) (text : String) : Except UsageError Value :=
  match kind with
  | path => if text = "" then .error .emptyValue else .ok (.path text)
  | unsigned =>
    match Text.unsigned? text.toList with
    | some number => .ok (.unsigned number)
    | none => .error .invalidValue
  | signed =>
    match Text.signed? text.toList with
    | some number => .ok (.signed number)
    | none => .error .invalidValue

/-- What an option does. -/
inductive Effect where
  /-- Count how often it occurs. -/
  | count
  /-- Be present, at most once. -/
  | flag
  | help
  | version
  /-- Take a value, at most once. -/
  | value (kind : ValueKind)
  deriving Repr, DecidableEq

/-- An option. -/
structure OptionSpec where
  name : String
  short : Option Char := none
  effect : Effect
  /-- Whether a value that looks like a negative number is not taken for options. -/
  takesNegative : Bool := false
  deriving Repr, DecidableEq

/-- What a command takes. -/
structure Grammar where
  options : List OptionSpec
  positionals : List (String × ValueKind) := []
  subcommands : List String := []
  deriving Repr, DecidableEq

/-- What a command was given. -/
structure Given where
  counts : List (String × Nat) := []
  flags : List String := []
  values : List (String × Value) := []
  deriving Repr, DecidableEq

namespace Given

/-- Occurrences are counted up to this number. -/
def countLimit : Nat := 255

/-- How often an option occurs, if it does. -/
def count? (given : Given) (name : String) : Option Nat := given.counts.lookup name

/-- The value of an option or a positional. -/
def value? (given : Given) (name : String) : Option Value := given.values.lookup name

/-- Whether anything was given. -/
def isEmpty (given : Given) : Bool :=
  given.counts.isEmpty && given.flags.isEmpty && given.values.isEmpty

/-- Count another occurrence of an option. -/
def addCount (given : Given) (name : String) : Given :=
  let count := min countLimit ((given.count? name).getD 0 + 1)
  { given with counts := (name, count) :: given.counts.filter (·.1 ≠ name) }

/-- Note the presence of an option. -/
def addFlag (given : Given) (name : String) : Except UsageError Given :=
  if name ∈ given.flags then .error .repeatedArgument
  else .ok { given with flags := name :: given.flags }

/-- Note the value of an option or a positional. -/
def addValue (given : Given) (name : String) (kind : ValueKind) (text : String) :
    Except UsageError Given :=
  if (given.value? name).isSome then .error .repeatedArgument
  else do
    let value ← kind.parse text
    return { given with values := (name, value) :: given.values }

end Given

/-- An option or a positional whose value has not been judged yet. -/
structure Pending where
  name : String
  kind : ValueKind
  takesNegative : Bool := false
  text? : Option String := none
  deriving Repr, DecidableEq

/-- How far a command line has been read. -/
structure Progress where
  given : Given := {}
  pending : Option Pending := none
  /-- The number of positional values so far. -/
  position : Nat := 0
  /-- Whether two dashes have been seen. -/
  trailing : Bool := false
  deriving Repr, DecidableEq

namespace Progress

/-- The option that waits for its value. -/
def waiting? (progress : Progress) : Option Pending :=
  progress.pending.filter (·.text?.isNone)

/-- Judge what is pending. -/
def resolve (progress : Progress) : Except UsageError Progress :=
  match progress.pending with
  | none => .ok progress
  | some { text? := none, .. } => .error .emptyValue
  | some { name, kind, text? := some text, .. } => do
    let given ← progress.given.addValue name kind text
    return { progress with given, pending := none }

/-- Meet an option, with its value if that is attached. -/
def meet (progress : Progress) (option : OptionSpec) (attached : Option String) :
    Except UsageError Progress := do
  match option.effect, attached with
  | .value kind, none =>
    let progress ← progress.resolve
    return { progress with
      pending := some { name := option.name, kind, takesNegative := option.takesNegative } }
  | .value kind, some text =>
    let progress ← progress.resolve
    let given ← progress.given.addValue option.name kind text
    return { progress with given }
  | _, some _ => throw .unexpectedValue
  | .count, none =>
    let progress ← progress.resolve
    return { progress with given := progress.given.addCount option.name }
  | .flag, none =>
    let progress ← progress.resolve
    let given ← progress.given.addFlag option.name
    return { progress with given }
  | .help, none =>
    let _ ← progress.resolve
    throw .help
  | .version, none =>
    let _ ← progress.resolve
    throw .version

/-- Give a text to the option that waits for it. -/
def supply (progress : Progress) (pending : Pending) (text : String) : Progress :=
  { progress with pending := some { pending with text? := some text } }

end Progress

/-- Whether characters look like a number: digits, a point that is neither first nor repeated nor in
the exponent, and after a letter in either case an exponent that is neither first nor empty. -/
def looksNumeric (chars : List Char) : Bool :=
  let (mantissa, exponent) := chars.span fun c => c ≠ 'e' && c ≠ 'E'
  let digits := mantissa.filter (· ≠ '.')
  mantissa.count '.' ≤ 1 && mantissa.head? ≠ some '.' && digits.all Char.isDigit &&
    match exponent with
    | [] => true
    | _ :: power => !mantissa.isEmpty && !power.isEmpty && power.all Char.isDigit

namespace Grammar

variable (grammar : Grammar)

/-- Meet an argument that starts with two dashes. -/
def meetLong (progress : Progress) (chars : List Char) : Except UsageError Progress :=
  let (name, attached) := chars.span (· ≠ '=')
  let attached := match attached with
    | [] => none
    | _ :: text => some (String.ofList text)
  match grammar.options.find? (·.name = String.ofList name) with
  | none => .error .unknownArgument
  | some option => progress.meet option attached

/-- Meet the options of an argument that starts with one dash. The first that takes a value takes
the rest of the argument, less an equals sign. -/
def meetShort (progress : Progress) : List Char → Except UsageError Progress
  | [] => .ok progress
  | c :: rest =>
    match grammar.options.find? (·.short = some c) with
    | none => .error .unknownArgument
    | some option =>
      match option.effect, rest with
      | .value _, [] => progress.meet option none
      | .value _, '=' :: text => progress.meet option (some (String.ofList text))
      | .value _, text => progress.meet option (some (String.ofList text))
      | _, rest => do
        let progress ← progress.meet option none
        meetShort progress rest

/-- Meet a positional value. -/
def meetPositional (progress : Progress) (text : String) : Except UsageError Progress :=
  match grammar.positionals[progress.position]? with
  | some (name, kind) => do
    let progress ← progress.resolve
    return { progress with
      pending := some { name, kind, text? := some text }
      position := progress.position + 1 }
  | none =>
    if grammar.subcommands.isEmpty ∨ (progress.trailing ∧ text ∈ grammar.subcommands) then
      .error .unknownArgument
    else .error .unknownSubcommand

/-- Meet an argument that is not the name of a subcommand. -/
def meet (progress : Progress) (argument : String) : Except UsageError Progress :=
  if progress.trailing then grammar.meetPositional progress argument
  else
    match argument.toList, progress.waiting? with
    | ['-', '-'], _ => .ok { progress with trailing := true }
    | '-' :: '-' :: chars, _ => grammar.meetLong progress chars
    | '-' :: c :: chars, some pending =>
      if pending.takesNegative ∧ looksNumeric (c :: chars) then
        .ok (progress.supply pending argument)
      else grammar.meetShort progress (c :: chars)
    | '-' :: c :: chars, none => grammar.meetShort progress (c :: chars)
    | _, some pending => .ok (progress.supply pending argument)
    | _, none => grammar.meetPositional progress argument

/-- Read arguments up to the name of a subcommand, which is given back with what follows it. -/
def read (progress : Progress) :
    List String → Except UsageError (Progress × Option (String × List String))
  | [] => .ok (progress, none)
  | argument :: rest =>
    if ¬progress.trailing ∧ progress.waiting?.isNone ∧ argument ∈ grammar.subcommands then
      .ok (progress, some (argument, rest))
    else do
      let progress ← grammar.meet progress argument
      read progress rest

end Grammar

end TableReplica.CommandLine
