import TableReplica.CommandLine.Program
import TableReplica.Proofs.CommandLine.Values

/-!
# What a command line says about applying a changeset

A command line that asks for a changeset to be applied names the command, with options before the
name and the arguments of the command after it (`exists_of_parse`). After the name everything is
told by those arguments and the environment (`parse_of_read`, `readApply_eq_ok_iff`), but for the
amount of logging.
-/

namespace TableReplica.CommandLine

variable {setting? : Option Bytes} {arguments rest : List String} {given : ApplyArguments}
  {inner : Given} {invocation : Invocation}

/-- What the command that applies a changeset to this directory was given. -/
def Given.applyArguments (inner : Given) (directory : String) : ApplyArguments where
  directory
  input? := inner.path? "input"
  trustedRevision? := inner.unsigned? "trusted-revision"
  timeout := (inner.unsigned? "timeout").getD 60
  maxChangesets? := inner.signed? "max-changesets"
  config? := inner.path? "config"
  json := "json" ∈ inner.flags

/-- A command with the amount of logging that was asked for before and after its name. -/
def Progress.invoke (progress : Progress) (command : Command) (inner : Given) : Invocation where
  command
  verbose := ((inner.count? "verbose").or (progress.given.count? "verbose")).getD 0
  quiet := "quiet" ∈ inner.flags || "quiet" ∈ progress.given.flags

/-- The arguments are read, then the environment, and a directory has to be among what they give. -/
theorem readApply_eq_ok_iff {command : Command} :
    readApply setting? arguments = .ok (command, inner) ↔
      ∃ read directory, readAll applyGrammar arguments = .ok read ∧
        read.orEnvironment "max-changesets" .signed setting? = .ok inner ∧
        inner.path? "directory" = some directory ∧
        command = .apply (inner.applyArguments directory) := by
  constructor
  · intro h
    obtain ⟨read, hread, hrest⟩ := exists_of_bind_ok h
    obtain ⟨found, hfound, hlast⟩ := exists_of_bind_ok hrest
    split at hlast
    · cases hlast
    · next directory hdirectory =>
        cases hlast
        exact ⟨read, directory, hread, hfound, hdirectory, rfl⟩
  · rintro ⟨read, directory, hread, hfound, hdirectory, rfl⟩
    simp only [readApply, hread, hfound, hdirectory, bind, Except.bind, pure, Except.pure]
    rfl

/-- The arguments of the command that compares two revisions ask for nothing else. -/
theorem readCheck_ne_apply : readCheck arguments ≠ .ok (.apply given, inner) := by
  intro h
  obtain ⟨read, -, hrest⟩ := exists_of_bind_ok h
  split at hrest <;> cases hrest

/-- After the name of the command everything is told by what follows it, but for the amount of
logging. -/
theorem parse_of_read {progress : Progress}
    (h : topGrammar.read {} arguments = .ok (progress, some ("apply", rest)))
    (setting? : Option Bytes) :
    parse setting? arguments =
      (readApply setting? rest).map fun found => progress.invoke found.1 found.2 := by
  simp only [parse, h, bind, Except.bind]
  cases readApply setting? rest <;> rfl

/-- A command line that asks for a changeset to be applied names the command. -/
theorem exists_of_parse (h : parse setting? arguments = .ok invocation)
    (hcommand : invocation.command = .apply given) :
    ∃ progress rest inner, topGrammar.read {} arguments = .ok (progress, some ("apply", rest)) ∧
      readApply setting? rest = .ok (.apply given, inner) ∧
      invocation = progress.invoke (.apply given) inner := by
  obtain ⟨⟨progress, name?⟩, hread, hrest⟩ := exists_of_bind_ok h
  split at hrest
  · obtain ⟨judged, -, hlast⟩ := exists_of_bind_ok hrest
    cases hlast
  · next name rest hname =>
      cases hname
      split at hrest
      · obtain ⟨⟨command, inner⟩, happly, hlast⟩ := exists_of_bind_ok hrest
        cases hlast
        cases hcommand
        exact ⟨progress, rest, inner, hread, happly, rfl⟩
      · obtain ⟨⟨command, inner⟩, hcheck, hlast⟩ := exists_of_bind_ok hrest
        cases hlast
        cases hcommand
        exact absurd hcheck readCheck_ne_apply
      · obtain ⟨_, herror, -⟩ := exists_of_bind_ok hrest
        cases herror

/-- The run of a command line that asks for a changeset to be applied is the run of that command. -/
theorem run_of_parse {machine : Machine}
    (h : parse machine.retentionVariable? arguments = .ok invocation)
    (hcommand : invocation.command = .apply given) :
    run machine arguments = runApply machine given := by
  obtain ⟨command, verbose, quiet⟩ := invocation
  cases hcommand
  rw [run, h]

/-- The number of changesets to keep is a signed number. -/
theorem takes_maxChangesets_iff {kind : ValueKind} :
    applyGrammar.Takes "max-changesets" kind ↔ kind = .signed := by
  simp [Grammar.Takes, applyGrammar, commonOptions, eq_comm]

theorem orEnvironment_none (inner : Given) (name : String) (kind : ValueKind) :
    inner.orEnvironment name kind none = .ok inner := by
  unfold Given.orEnvironment
  cases inner.value? name <;> rfl

/-- What the command that applies a changeset was given suits its grammar, also what it takes from
the environment. -/
theorem suits_of_readApply (h : readApply setting? arguments = .ok (.apply given, inner)) :
    inner.Suits applyGrammar := by
  obtain ⟨read, directory, hread, hfound, -, -⟩ := readApply_eq_ok_iff.mp h
  have hsuits := suits_of_readAll hread
  unfold Given.orEnvironment at hfound
  split at hfound
  · split at hfound
    · exact hsuits.addValue (takes_maxChangesets_iff.mpr rfl) hfound
    · cases hfound
  · cases hfound
    exact hsuits

section

variable {grammar : Grammar} {progress : Progress} {argument : String}

/-- Without subcommands every argument is met. -/
theorem read_of_bare (h : grammar.subcommands = []) (arguments : List String) :
    grammar.read progress (argument :: arguments) =
      grammar.meet progress argument >>= fun met => grammar.read met arguments := by
  rw [Grammar.read, if_neg (by simp [h])]

/-- A word that does not start with a dash goes to the option that waits for a value. -/
theorem meet_of_waiting {pending : Pending} (hopen : progress.trailing = false)
    (hwaiting : progress.waiting? = some pending) (hword : argument.toList.head? ≠ some '-') :
    grammar.meet progress argument = .ok (progress.supply pending argument) := by
  unfold Grammar.meet
  rw [if_neg (by simp [hopen])]
  split <;> simp_all

/-- A word that does not start with a dash is a positional value if no option waits for it. -/
theorem meet_of_word (hopen : progress.trailing = false) (hwaiting : progress.waiting? = none)
    (hword : argument.toList.head? ≠ some '-') :
    grammar.meet progress argument = grammar.meetPositional progress argument := by
  unfold Grammar.meet
  rw [if_neg (by simp [hopen])]
  split <;> simp_all

end

end TableReplica.CommandLine
