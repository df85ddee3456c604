import TableReplica.Proofs.Acceptance
import TableReplica.Proofs.CommandLine.Commands

/-!
# Whether the deadline fits the clock

The deadline of an apply is what the clock shows and the seconds allowed, put together. Every number
of seconds that has 64 bits can be given (`parse_timeout`, `timeout_lt`), but the clock has one bit
less, so a deadline need not fit. Then the program is aborted, with the directory made and nothing
read. If the deadline fits, or something fails before it is worked out, the program prints what it
applied or reports why it did not. The main result is `run_deadline`, and `run_deadline_overflow`
shows a command line that has the program aborted even while the clock shows no second yet.
-/

namespace TableReplica.CommandLine

open Apply Files Transport

variable {arguments : List String} {given : ApplyArguments} {invocation : Invocation}
  {machine : Machine} {made : FileSystem}

/-- How a run ends that is not aborted: what was applied is printed, or a report is. -/
inductive Concluded (given : ApplyArguments) : Ending → Prop where
  | printed (applied : Applied) (files : FileSystem) :
      Concluded given
        { exitCode := 0
          output := (if given.json then summaryJson applied else summaryLine applied) ++ "\n"
          files }
  | reported (report : Report) (files : FileSystem) :
      Concluded given { exitCode := 1, report? := some report, files }

theorem Concluded.exitCode_le {ending : Ending} (h : Concluded given ending) :
    ending.exitCode ≤ 1 := by
  cases h with
  | printed applied files => exact Nat.zero_le 1
  | reported report files => exact le_rfl

/-- The machine offers all that is asked of it before the deadline is worked out: the configuration
is valid, the directory can be made, which gives these files, and the input can be opened. -/
structure Ready (machine : Machine) (given : ApplyArguments) (made : FileSystem) : Prop where
  configured : ∃ config, loadConfig machine given = .ok config
  prepared : machine.files.makeDirectories (.ofText machine.workingDirectory given.directory) =
    (.ok (), made)
  opened : ∀ text, given.input? = some text →
    ∃ input, openInput made (.ofText machine.workingDirectory text) = .ok input

/-- Applying a changeset ends with its summary or with a report. -/
theorem concluded_applyInput (given : ApplyArguments) (config : Config) (directory : Path)
    (input : Feed) (files : FileSystem) :
    Concluded given (applyInput given config directory input files) := by
  unfold applyInput
  dsimp only
  split
  · next applied _ => exact .printed applied _
  · exact .reported _ _

/-- Where the machine is ready, only the deadline is in the way of applying the changeset. -/
theorem runApply_of_ready (h : Ready machine given made) :
    ∃ report config input opened,
      runApply machine given =
        if clockBound ≤ machine.clock + given.timeout then
          { exitCode := abortCode, report? := some report, files := made }
        else applyInput given config (.ofText machine.workingDirectory given.directory) input
          opened := by
  obtain ⟨config, hconfig⟩ := h.configured
  have hopened := h.opened
  unfold runApply
  simp only [hconfig, h.prepared]
  cases hinput : given.input? with
  | none => exact ⟨_, _, _, _, rfl⟩
  | some text =>
      obtain ⟨⟨input, opened⟩, hopen⟩ := hopened text hinput
      simp only [hopen]
      exact ⟨_, _, _, _, rfl⟩

/-- Where the machine is not ready, a report says so. -/
theorem concluded_of_not_ready (h : ¬ ∃ made, Ready machine given made) :
    Concluded given (runApply machine given) := by
  unfold runApply
  split
  · exact .reported _ _
  · next config hconfig =>
      simp only
      split
      · exact .reported _ _
      · next made hmade =>
          cases hinput : given.input? with
          | none => exact absurd ⟨made, ⟨config, hconfig⟩, hmade, by simp [hinput]⟩ h
          | some text =>
              simp only
              split
              · exact .reported _ _
              · next input opened hopen =>
                  have hready : Ready machine given made :=
                    ⟨⟨config, hconfig⟩, hmade, fun other hother => by
                      cases hinput.symm.trans hother
                      exact ⟨_, hopen⟩⟩
                  exact absurd ⟨made, hready⟩ h

/-- The number of seconds allowed is one of a word. -/
theorem timeout_lt {setting? : Option Bytes} (h : parse setting? arguments = .ok invocation)
    (hcommand : invocation.command = .apply given) : given.timeout < UInt64.size := by
  obtain ⟨progress, rest, inner, -, happly, -⟩ := exists_of_parse h hcommand
  obtain ⟨read, directory, -, -, -, hgiven⟩ := readApply_eq_ok_iff.mp happly
  have hsuits := suits_of_readApply happly
  cases hgiven
  show (inner.unsigned? "timeout").getD 60 < UInt64.size
  unfold Given.unsigned?
  split
  · next number hnumber =>
      obtain ⟨kind, -, hadmits⟩ := hsuits.of_value? hnumber
      cases hadmits with
      | unsigned _ hfits => exact hfits
  · decide

/-- What was read when the directory has not been judged yet. -/
def placed (directory : String) : Progress where
  pending := some { name := "directory", kind := .path, text? := some directory }
  position := 1

/-- What was read when the option for the seconds waits for them, after the directory. -/
def awaitingSeconds (directory : String) : Progress where
  given.values := [("directory", .path directory)]
  pending := some { name := "timeout", kind := .unsigned }
  position := 1

/-- What a directory and a number of seconds give. -/
def secondsGiven (directory : String) (timeout : Nat) : Given where
  values := [("timeout", .unsigned timeout), ("directory", .path directory)]

variable {directory : String} {timeout : Nat}

/-- A directory and the option for the seconds are read. -/
theorem read_awaitingSeconds (hsome : directory ≠ "") (hword : directory.toList.head? ≠ some '-')
    (rest : List String) :
    applyGrammar.read {} (directory :: "--timeout" :: rest) =
      applyGrammar.read (awaitingSeconds directory) rest := by
  have hpath : ValueKind.path.parse directory = .ok (.path directory) := if_neg hsome
  have hoption : applyGrammar.meet (placed directory) "--timeout" =
      .ok (awaitingSeconds directory) := by
    show (placed directory).meet { name := "timeout", effect := .value .unsigned } none = _
    simp only [placed, Progress.meet, Progress.resolve, Given.addValue, hpath, bind, Except.bind,
      pure, Except.pure]
    rfl
  have hplaced : applyGrammar.meet {} directory = .ok (placed directory) := by
    rw [meet_of_word rfl rfl hword]
    rfl
  rw [read_of_bare rfl, hplaced]
  show applyGrammar.read (placed directory) ("--timeout" :: rest) = _
  rw [read_of_bare rfl, hoption]
  rfl

/-- A number of seconds is not taken for an option. -/
theorem head?_toString (number : Nat) : (toString number).toList.head? ≠ some '-' := by
  rw [Nat.toString_eq_repr, Nat.toList_repr]
  intro hdash
  have hdigit : '-'.isDigit = true :=
    Nat.isDigit_of_mem_toDigits (by decide) (by decide) (List.mem_of_head? hdash)
  exact absurd hdigit (by decide)

/-- Every number of seconds below the word bound can be given as the timeout. -/
theorem parse_timeout (hsome : directory ≠ "") (hword : directory.toList.head? ≠ some '-')
    (htimeout : timeout < UInt64.size) :
    parse none ["apply", directory, "--timeout", toString timeout] =
      .ok { command := .apply { directory, timeout }, verbose := 0, quiet := false } := by
  have hseconds : applyGrammar.read (awaitingSeconds directory) [toString timeout] =
      .ok ((awaitingSeconds directory).supply { name := "timeout", kind := .unsigned }
        (toString timeout), none) := by
    rw [read_of_bare rfl, meet_of_waiting rfl rfl (head?_toString timeout)]
    rfl
  have hnumber : ValueKind.unsigned.parse (toString timeout) = .ok (.unsigned timeout) := by
    simp only [ValueKind.parse, Text.unsigned?_toString htimeout]
  have hread : readAll applyGrammar [directory, "--timeout", toString timeout] =
      .ok (secondsGiven directory timeout) := by
    rw [readAll, read_awaitingSeconds hsome hword, hseconds]
    simp only [awaitingSeconds, Progress.supply, Progress.resolve, Given.addValue, hnumber, bind,
      Except.bind, pure, Except.pure]
    rfl
  have happly : readApply none [directory, "--timeout", toString timeout] =
      .ok (.apply { directory, timeout }, secondsGiven directory timeout) :=
    readApply_eq_ok_iff.mpr ⟨_, directory, hread, orEnvironment_none _ _ _, rfl, rfl⟩
  have hname : topGrammar.read {} ["apply", directory, "--timeout", toString timeout] =
      .ok ({}, some ("apply", [directory, "--timeout", toString timeout])) := rfl
  rw [parse_of_read hname, happly]
  rfl

/-- A command line that asks for a changeset to be applied ends with a summary or a report just if
the deadline fits the clock or something is in the way of working it out. Otherwise the program is
aborted: the directory has been made, and nothing was printed, read or applied. The number of
seconds allowed has 64 bits, one more than the clock. -/
theorem run_deadline (machine : Machine)
    (hparse : parse machine.retentionVariable? arguments = .ok invocation)
    (hcommand : invocation.command = .apply given) :
    (Concluded given (run machine arguments) ↔
      ((∃ made, Ready machine given made) → machine.clock + given.timeout < 2 ^ 63)) ∧
    (∀ made, Ready machine given made → 2 ^ 63 ≤ machine.clock + given.timeout →
      (run machine arguments).exitCode = abortCode ∧ (run machine arguments).output = "" ∧
        (run machine arguments).files = made) ∧
    given.timeout < 2 ^ 64 := by
  rw [run_of_parse hparse hcommand]
  have haborted (made : FileSystem) (hready : Ready machine given made)
      (hlate : 2 ^ 63 ≤ machine.clock + given.timeout) :
      (runApply machine given).exitCode = abortCode ∧ (runApply machine given).output = "" ∧
        (runApply machine given).files = made := by
    obtain ⟨report, config, input, opened, hrun⟩ := runApply_of_ready hready
    have hbound : clockBound ≤ machine.clock + given.timeout := hlate
    rw [hrun, if_pos hbound]
    exact ⟨rfl, rfl, rfl⟩
  refine ⟨⟨?_, fun htimely => ?_⟩, haborted, timeout_lt hparse hcommand⟩
  · rintro hconcluded ⟨made, hready⟩
    by_contra hlate
    obtain ⟨hexit, -⟩ := haborted made hready (Nat.not_lt.mp hlate)
    have hle := hconcluded.exitCode_le
    rw [hexit] at hle
    exact absurd hle (by decide)
  · by_cases hready : ∃ made, Ready machine given made
    · obtain ⟨made, hmade⟩ := hready
      obtain ⟨report, config, input, opened, hrun⟩ := runApply_of_ready hmade
      have hfits : ¬ clockBound ≤ machine.clock + given.timeout :=
        Nat.not_le.mpr (htimely ⟨made, hmade⟩)
      rw [hrun, if_neg hfits]
      exact concluded_applyInput _ _ _ _ _
    · exact concluded_of_not_ready hready

/-- A machine without files, with the changeset with one block on its standard input. -/
def sampleMachine (clock : Nat) : Machine where
  files := {}
  workingDirectory := []
  standardInput := [.data Replicator.sampleStream.bytes]
  clock

/-- Apply a changeset within a number of seconds. -/
def applyWithin (timeout : Nat) : List String :=
  ["apply", "db", "--timeout", toString timeout]

/-- The files of the sample machine when the directory has been made. -/
def sampleMade : FileSystem where
  entries := [(["db"], .directory)]

theorem ready_sampleMachine (clock timeout : Nat) :
    Ready (sampleMachine clock) { directory := "db", timeout } sampleMade where
  configured := ⟨_, rfl⟩
  prepared := by
    have hancestors : FileSystem.ancestors (.ofText [] "db") = [.ofText [] "db"] := by
      decide +kernel
    show FileSystem.makeDirectories {} (.ofText [] "db") = _
    rw [FileSystem.makeDirectories, hancestors]
    rfl
  opened := by simp

/-- With an hour on the clock the program is aborted from a number of seconds on, and is not with one
second less. -/
theorem run_deadline_hour :
    (run (sampleMachine 3600) (applyWithin (2 ^ 63 - 3600))).exitCode = abortCode ∧
      (run (sampleMachine 3600) (applyWithin (2 ^ 63 - 3600))).files = sampleMade ∧
      ∃ given, Concluded given (run (sampleMachine 3600) (applyWithin (2 ^ 63 - 3601))) := by
  have hlate := parse_timeout (by decide : "db" ≠ "") (by decide)
    (by decide : 2 ^ 63 - 3600 < UInt64.size)
  have htimely := parse_timeout (by decide : "db" ≠ "") (by decide)
    (by decide : 2 ^ 63 - 3601 < UInt64.size)
  obtain ⟨-, haborted, -⟩ := run_deadline (sampleMachine 3600) hlate rfl
  obtain ⟨hexit, -, hfiles⟩ := haborted sampleMade (ready_sampleMachine _ _) (by decide)
  obtain ⟨hconcluded, -⟩ := run_deadline (sampleMachine 3600) htimely rfl
  exact ⟨hexit, hfiles, _, hconcluded.mpr fun _ => by decide⟩

/-- Apply a changeset within the largest number of seconds that can be given. -/
def applyWithinLongest : List String :=
  ["apply", "db", "--timeout", "18446744073709551615"]

/-- Not every command line that asks for a changeset to be applied ends with it applied or with a
report: with the largest number of seconds the program is aborted even while the clock shows no
second yet, although the changeset is applied if no number is given. -/
theorem run_deadline_overflow :
    parse none applyWithinLongest =
        .ok { command := .apply { directory := "db", timeout := 2 ^ 64 - 1 }
              verbose := 0
              quiet := false } ∧
      Ready (sampleMachine 0) { directory := "db", timeout := 2 ^ 64 - 1 } sampleMade ∧
      (run (sampleMachine 0) applyWithinLongest).exitCode = 101 ∧
      (¬ ∃ given, Concluded given (run (sampleMachine 0) applyWithinLongest)) ∧
      (run (sampleMachine 0) ["apply", "db"]).exitCode = 0 := by
  have hexit : (run (sampleMachine 0) applyWithinLongest).exitCode = 101 := by decide +kernel
  refine ⟨by rfl, ready_sampleMachine _ _, hexit, ?_, by decide +kernel⟩
  rintro ⟨given, hconcluded⟩
  have hle := hconcluded.exitCode_le
  rw [hexit] at hle
  exact absurd hle (by decide)

end TableReplica.CommandLine
