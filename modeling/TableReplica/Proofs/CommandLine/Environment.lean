import TableReplica.Proofs.Acceptance
import TableReplica.Proofs.CommandLine.Commands

/-!
# The number of changesets to keep, from the environment

The environment variable is read in two ways. `Config.ofEnvironment` trims it and takes whatever is
no integer for zero. A command line without the option for the number takes it as it stands
(`parse_of_setting`), and is refused if it is no integer. The two agree just where the variable is
unset or an integer with nothing around it (`Plain`). The main result is `run_environment`, and
`run_environment_unparsable` shows a value that one of them takes for zero and the other refuses.
-/

namespace TableReplica.CommandLine

open Apply Files Transport

variable {setting? : Option Bytes} {arguments : List String} {given : ApplyArguments}
  {inner : Given} {invocation : Invocation} {machine : Machine}

/-- The variable is unset, or an integer of 64 bits with nothing around it. -/
def Plain (setting? : Option Bytes) : Prop :=
  ∀ setting ∈ setting?, ∃ chars count,
    Text.decode? setting = some chars ∧ Text.signed? chars = some count

/-- The number that a command line takes from the environment. -/
def readSetting (setting : Bytes) : Except UsageError Int :=
  match Text.decode? setting with
  | none => .error .undecodableValue
  | some chars =>
    match Text.signed? chars with
    | none => .error .invalidValue
    | some count => .ok count

/-- A variable that is text stands for what is read from it. -/
theorem ofEnvironment_of_text {setting : Bytes} {chars : List Char}
    (h : Text.decode? setting = some chars) :
    Config.ofEnvironment (some setting) = { maxChangesets := Config.readCount chars } := by
  simp only [Config.ofEnvironment, Option.bind_some, h]

/-- An integer with nothing around it is read alike in both ways. -/
theorem ofEnvironment_of_readSetting {setting : Bytes} {count : Int}
    (h : readSetting setting = .ok count) :
    Config.ofEnvironment (some setting) = ({} : Config).withMaxChangesets count := by
  unfold readSetting at h
  split at h
  · cases h
  · next chars hchars =>
      split at h
      · cases h
      · next hcount =>
          cases h
          rw [ofEnvironment_of_text hchars, Config.readCount, Text.trim_of_signed? hcount, hcount]
          rfl

theorem readSetting_of_plain {setting : Bytes} (h : Plain (some setting)) :
    ∃ count, readSetting setting = .ok count := by
  obtain ⟨chars, count, hchars, hcount⟩ := h setting rfl
  exact ⟨count, by simp only [readSetting, hchars, hcount]⟩

/-- What is not plain is set, and is refused for its form. -/
theorem readSetting_of_not_plain (h : ¬ Plain setting?) :
    ∃ setting error, setting? = some setting ∧ readSetting setting = .error error ∧
      (error = .undecodableValue ∨ error = .invalidValue) := by
  cases setting? with
  | none => exact absurd (by simp [Plain]) h
  | some setting =>
      cases hchars : Text.decode? setting with
      | none => exact ⟨setting, _, rfl, by simp only [readSetting, hchars], .inl rfl⟩
      | some chars =>
          cases hcount : Text.signed? chars with
          | none => exact ⟨setting, _, rfl, by simp only [readSetting, hchars, hcount], .inr rfl⟩
          | some count => exact absurd (by rintro _ ⟨⟩; exact ⟨chars, count, hchars, hcount⟩) h

/-- Without a number of changesets to keep, nothing was given under the name of the option. -/
theorem value?_of_unset (h : readApply setting? arguments = .ok (.apply given, inner))
    (hunset : given.maxChangesets? = none) : inner.value? "max-changesets" = none := by
  obtain ⟨read, directory, -, -, -, hgiven⟩ := readApply_eq_ok_iff.mp h
  have hsuits := suits_of_readApply h
  cases hgiven
  cases hvalue : inner.value? "max-changesets" with
  | none => rfl
  | some value =>
      -- The grammar takes only signed numbers under this name.
      obtain ⟨kind, htakes, hadmits⟩ := hsuits.of_value? hvalue
      obtain rfl := takes_maxChangesets_iff.mp htakes
      cases hadmits with
      | signed number hfits =>
          have hset : inner.signed? "max-changesets" = some number := by
            rw [Given.signed?, hvalue]
          exact absurd (hset.symm.trans hunset) (Option.some_ne_none _)

/-- An option that was not given is taken from the environment. -/
theorem orEnvironment_of_unset {name : String} (h : inner.value? name = none) (setting : Bytes) :
    inner.orEnvironment name .signed (some setting) =
      (readSetting setting).map fun count =>
        { inner with values := (name, .signed count) :: inner.values } := by
  unfold Given.orEnvironment readSetting
  simp only [h]
  cases Text.decode? setting with
  | none => rfl
  | some chars =>
      simp only [Given.addValue, h, ValueKind.parse, String.toList_ofList]
      cases Text.signed? chars <;> rfl

/-- Where the arguments of the command do not give the number of changesets to keep, the environment
does. -/
theorem readApply_of_setting (h : readApply none arguments = .ok (.apply given, inner))
    (hunset : given.maxChangesets? = none) (setting : Bytes) :
    readApply (some setting) arguments =
      (readSetting setting).map fun count =>
        (.apply { given with maxChangesets? := some count },
          { inner with values := ("max-changesets", .signed count) :: inner.values }) := by
  have hvalue := value?_of_unset h hunset
  obtain ⟨read, directory, hread, hfound, hdirectory, hgiven⟩ := readApply_eq_ok_iff.mp h
  rw [orEnvironment_none] at hfound
  cases hfound
  cases hgiven
  cases hsetting : readSetting setting with
  | error error =>
      simp only [readApply, hread, orEnvironment_of_unset hvalue, hsetting, bind, Except.bind,
        Except.map]
  | ok count =>
      refine readApply_eq_ok_iff.mpr ⟨inner, directory, hread, ?_, hdirectory, rfl⟩
      rw [orEnvironment_of_unset hvalue, hsetting]
      rfl

/-- Where a command line does not give the number of changesets to keep, it says the same with the
number from the environment, and is refused if there is none. -/
theorem parse_of_setting (h : parse none arguments = .ok invocation)
    (hcommand : invocation.command = .apply given) (hunset : given.maxChangesets? = none)
    (setting : Bytes) :
    parse (some setting) arguments =
      (readSetting setting).map fun count =>
        { invocation with command := .apply { given with maxChangesets? := some count } } := by
  obtain ⟨progress, rest, inner, hread, happly, rfl⟩ := exists_of_parse h hcommand
  rw [parse_of_read hread, readApply_of_setting happly hunset]
  cases readSetting setting <;> rfl

/-- The run applies a changeset with this configuration. -/
def AppliesWith (machine : Machine) (arguments : List String) (config : Config) : Prop :=
  ∃ given, loadConfig machine given = .ok config ∧ run machine arguments = runApply machine given ∧
    ∃ invocation, parse machine.retentionVariable? arguments = .ok invocation ∧
      invocation.command = .apply given

/-- The command line was refused: that is reported, and nothing was done. -/
structure Refused (machine : Machine) (ending : Ending) : Prop where
  exitCode : ending.exitCode = 2
  output : ending.output = ""
  reported : ending.report?.isSome = true
  files : ending.files = machine.files

/-- Where the variable is not plain, it stands for zero, or for an integer between white space. -/
theorem ofEnvironment_of_not_plain (h : ¬ Plain setting?) :
    Config.ofEnvironment setting? = {} ∨
      ∃ setting ∈ setting?, ∃ chars count, Text.decode? setting = some chars ∧
        Text.trim chars ≠ chars ∧ Text.signed? (Text.trim chars) = some count ∧
        Config.ofEnvironment setting? = ({} : Config).withMaxChangesets count := by
  cases setting? with
  | none => exact .inl rfl
  | some setting =>
      cases hchars : Text.decode? setting with
      | none => exact .inl (by simp only [Config.ofEnvironment, Option.bind_some, hchars])
      | some chars =>
          cases hcount : Text.signed? (Text.trim chars) with
          | none =>
              left
              rw [ofEnvironment_of_text hchars, Config.readCount, hcount]
          | some count =>
              right
              refine ⟨setting, rfl, chars, count, hchars, fun hsame => h ?_, hcount, ?_⟩
              · rintro _ ⟨⟩
                exact ⟨chars, count, hchars, hsame ▸ hcount⟩
              · rw [ofEnvironment_of_text hchars, Config.readCount, hcount]
                rfl

/-- A plain variable is what a command line without the option is applied with. -/
theorem appliesWith_of_plain (h : parse none arguments = .ok invocation)
    (hcommand : invocation.command = .apply given) (hunset : given.maxChangesets? = none)
    (hunconfigured : given.config? = none) (hplain : Plain machine.retentionVariable?) :
    AppliesWith machine arguments (Config.ofEnvironment machine.retentionVariable?) := by
  cases hsetting : machine.retentionVariable? with
  | none =>
      have hparse : parse machine.retentionVariable? arguments = .ok invocation := hsetting ▸ h
      refine ⟨given, ?_, run_of_parse hparse hcommand, invocation, hparse, hcommand⟩
      simp only [loadConfig, hunconfigured, hunset]
      rfl
  | some setting =>
      obtain ⟨count, hcount⟩ := readSetting_of_plain (hsetting ▸ hplain)
      let counted : ApplyArguments := { given with maxChangesets? := some count }
      have hparse : parse machine.retentionVariable? arguments =
          .ok { invocation with command := .apply counted } := by
        rw [hsetting, parse_of_setting h hcommand hunset, hcount]
        rfl
      refine ⟨counted, ?_, run_of_parse hparse rfl, _, hparse, rfl⟩
      rw [ofEnvironment_of_readSetting hcount]
      simp only [loadConfig, counted, hunconfigured]
      rfl

/-- A variable that is not plain has a command line without the option refused. -/
theorem exists_of_not_plain (h : parse none arguments = .ok invocation)
    (hcommand : invocation.command = .apply given) (hunset : given.maxChangesets? = none)
    (hplain : ¬ Plain machine.retentionVariable?) :
    ∃ error, parse machine.retentionVariable? arguments = .error error ∧
      Refused machine (run machine arguments) := by
  obtain ⟨setting, error, hsetting, herror, hform⟩ := readSetting_of_not_plain hplain
  have hparse : parse machine.retentionVariable? arguments = .error error := by
    rw [hsetting, parse_of_setting h hcommand hunset, herror]
    rfl
  refine ⟨error, hparse, ?_⟩
  unfold run
  rw [hparse]
  rcases hform with rfl | rfl <;> exact ⟨rfl, rfl, rfl, rfl⟩

/-- A command line that gives neither the number of changesets to keep nor a configuration file is
applied with what the environment variable stands for just if that is unset or an integer with
nothing around it. Every other value has the command line refused with nothing done, although it
stands for zero, or for the integer that is left when it is trimmed. -/
theorem run_environment (h : parse none arguments = .ok invocation)
    (hcommand : invocation.command = .apply given) (hunset : given.maxChangesets? = none)
    (hunconfigured : given.config? = none) (machine : Machine) :
    (AppliesWith machine arguments (Config.ofEnvironment machine.retentionVariable?) ↔
      Plain machine.retentionVariable?) ∧
    (¬ Plain machine.retentionVariable? →
      Refused machine (run machine arguments) ∧
      (Config.ofEnvironment machine.retentionVariable? = {} ∨
        ∃ setting ∈ machine.retentionVariable?, ∃ chars count,
          Text.decode? setting = some chars ∧ Text.trim chars ≠ chars ∧
          Text.signed? (Text.trim chars) = some count ∧
          Config.ofEnvironment machine.retentionVariable? =
            ({} : Config).withMaxChangesets count)) := by
  refine ⟨⟨?_, appliesWith_of_plain h hcommand hunset hunconfigured⟩, fun hplain => ?_⟩
  · rintro ⟨_, -, -, other, hparse, -⟩
    by_contra hplain
    obtain ⟨error, herror, -⟩ := exists_of_not_plain h hcommand hunset hplain
    rw [herror] at hparse
    cases hparse
  · obtain ⟨error, -, hrefused⟩ := exists_of_not_plain h hcommand hunset hplain
    exact ⟨hrefused, ofEnvironment_of_not_plain hplain⟩

/-- A machine with a changeset on its standard input and this text in the environment. -/
def machineSaying (text : String) : Machine where
  files := {}
  workingDirectory := []
  standardInput := [.data Replicator.sampleStream.bytes]
  retentionVariable? := some (Bytes.ofText text)

theorem parse_directory :
    parse none ["apply", "db"] =
      .ok { command := .apply { directory := "db" }, verbose := 0, quiet := false } :=
  rfl

theorem not_plain_padded : ¬ Plain (some (Bytes.ofText " 3")) := by
  intro hplain
  obtain ⟨chars, count, hchars, hcount⟩ := hplain _ rfl
  have hread : Text.decode? (Bytes.ofText " 3") = some [' ', '3'] := by decide +kernel
  have hnone : Text.signed? [' ', '3'] = none := by decide
  cases hread.symm.trans hchars
  cases hnone.symm.trans hcount

/-- A negative number keeps no changeset, and a command line is refused for a number after a space. -/
theorem run_environment_negative :
    AppliesWith (machineSaying "-4") ["apply", "db"] {} ∧
      Refused (machineSaying " 3") (run (machineSaying " 3") ["apply", "db"]) := by
  obtain ⟨happlies, -⟩ := run_environment parse_directory rfl rfl rfl (machineSaying "-4")
  obtain ⟨-, hrefused⟩ := run_environment parse_directory rfl rfl rfl (machineSaying " 3")
  have hnegative : Config.ofEnvironment (machineSaying "-4").retentionVariable? = {} := by
    decide +kernel
  have hplain : Plain (machineSaying "-4").retentionVariable? := by
    rintro _ ⟨⟩
    exact ⟨['-', '4'], -4, by decide +kernel, by decide⟩
  exact ⟨hnegative ▸ happlies.mpr hplain, (hrefused not_plain_padded).1⟩

/-- The two ways do not always agree: a word stands for zero, and a number after a space for itself,
but a command line is not applied with either. It is refused, although it is applied without the
variable. -/
theorem run_environment_unparsable :
    Config.ofEnvironment (machineSaying "lots").retentionVariable? = {} ∧
      (¬ AppliesWith (machineSaying "lots") ["apply", "db"] {}) ∧
      (run (machineSaying "lots") ["apply", "db"]).exitCode = 2 ∧
      Config.ofEnvironment (machineSaying " 3").retentionVariable? = { maxChangesets := 3 } ∧
      (run (machineSaying " 3") ["apply", "db"]).exitCode = 2 ∧
      (run { machineSaying "" with retentionVariable? := none } ["apply", "db"]).exitCode = 0 := by
  refine ⟨by decide +kernel, ?_, by decide +kernel, by decide +kernel, by decide +kernel,
    by decide +kernel⟩
  rintro ⟨given, -, -, invocation, hparse, -⟩
  have hchars : Text.decode? (Bytes.ofText "lots") = some ['l', 'o', 't', 's'] := by decide +kernel
  have hcount : Text.signed? ['l', 'o', 't', 's'] = none := by decide
  have hword : readSetting (Bytes.ofText "lots") = .error .invalidValue := by
    simp only [readSetting, hchars, hcount]
  have hrefused := parse_of_setting parse_directory rfl rfl (Bytes.ofText "lots")
  rw [hword] at hrefused
  cases hrefused.symm.trans hparse

end TableReplica.CommandLine
