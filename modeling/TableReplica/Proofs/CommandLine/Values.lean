import TableReplica.CommandLine.Arguments
import TableReplica.Proofs.Text.Decimal

/-!
# The values that a command line gives

Whatever a command line says, what was read from it suits the grammar: each value has the kind that
the grammar takes under its name, and lies in the range of the kind. `Progress.Suits` is kept by
every argument (`Progress.Suits.meet`), so it holds after any number of them. The main result is
`suits_of_readAll`.
-/

namespace TableReplica.CommandLine

/-- What comes out of two steps comes out of the second, and the first has an outcome. -/
theorem exists_of_bind_ok {ε α β : Type} {first : Except ε α} {next : α → Except ε β} {value : β}
    (h : (first >>= next) = .ok value) :
    ∃ middle, first = .ok middle ∧ next middle = .ok value := by
  cases first with
  | error error => cases h
  | ok middle => exact ⟨middle, rfl, h⟩

/-- The values of a kind. -/
inductive ValueKind.Admits : ValueKind → Value → Prop where
  | path (text : String) : text ≠ "" → Admits .path (.path text)
  | unsigned (number : Nat) : number < UInt64.size → Admits .unsigned (.unsigned number)
  | signed (number : Int) : Text.fitsSigned number = true → Admits .signed (.signed number)

/-- A text is read as a value of its kind. -/
theorem ValueKind.admits_of_parse {kind : ValueKind} {text : String} {value : Value}
    (h : kind.parse text = .ok value) : kind.Admits value := by
  cases kind with
  | path =>
      simp only [ValueKind.parse] at h
      split at h
      · cases h
      · next hsome =>
          cases h
          exact .path text hsome
  | unsigned =>
      simp only [ValueKind.parse] at h
      split at h
      · next number hnumber =>
          cases h
          exact .unsigned number (Text.unsigned?_lt hnumber)
      · cases h
  | signed =>
      simp only [ValueKind.parse] at h
      split at h
      · next number hnumber =>
          obtain ⟨-, -, -, -, -, -, -, hfits⟩ := Text.exists_of_signed? hnumber
          cases h
          exact .signed number hfits
      · cases h

/-- A command takes values of a kind under a name. -/
def Grammar.Takes (grammar : Grammar) (name : String) (kind : ValueKind) : Prop :=
  (∃ option ∈ grammar.options, option.name = name ∧ option.effect = .value kind) ∨
    (name, kind) ∈ grammar.positionals

/-- Every value that was given is of a kind that the grammar takes under its name. -/
def Given.Suits (grammar : Grammar) (given : Given) : Prop :=
  ∀ item ∈ given.values, ∃ kind, grammar.Takes item.1 kind ∧ kind.Admits item.2

/-- What was given suits the grammar, and so does what has not been judged yet. -/
structure Progress.Suits (grammar : Grammar) (progress : Progress) : Prop where
  given : progress.given.Suits grammar
  pending : ∀ pending ∈ progress.pending, grammar.Takes pending.name pending.kind

variable {grammar : Grammar} {progress after : Progress}

/-- A value that is judged under a name that takes its kind suits the grammar. -/
theorem Given.Suits.addValue {given added : Given} {name text : String} {kind : ValueKind}
    (h : given.Suits grammar) (htakes : grammar.Takes name kind)
    (hadded : given.addValue name kind text = .ok added) : added.Suits grammar := by
  unfold Given.addValue at hadded
  split at hadded
  · cases hadded
  · obtain ⟨value, hvalue, hresult⟩ := exists_of_bind_ok hadded
    cases hresult
    intro item hitem
    rcases List.mem_cons.mp hitem with rfl | hitem
    · exact ⟨kind, htakes, ValueKind.admits_of_parse hvalue⟩
    · exact h item hitem

theorem Given.Suits.addFlag {given added : Given} {name : String} (h : given.Suits grammar)
    (hadded : given.addFlag name = .ok added) : added.Suits grammar := by
  unfold Given.addFlag at hadded
  split at hadded
  · cases hadded
  · cases hadded
    exact h

namespace Progress.Suits

/-- Judging what is pending leaves what suits the grammar, and nothing pending. -/
theorem resolve (h : progress.Suits grammar) (hresolve : progress.resolve = .ok after) :
    after.Suits grammar := by
  unfold Progress.resolve at hresolve
  split at hresolve
  · cases hresolve
    exact h
  · cases hresolve
  · next name kind _ text hpending =>
      obtain ⟨given, hgiven, hresult⟩ := exists_of_bind_ok hresolve
      cases hresult
      exact ⟨h.given.addValue (h.pending _ hpending) hgiven, by simp⟩

/-- Meeting an option of the grammar keeps to the grammar. -/
theorem meet {option : OptionSpec} {attached : Option String} (h : progress.Suits grammar)
    (hoption : option ∈ grammar.options) (hmeet : progress.meet option attached = .ok after) :
    after.Suits grammar := by
  unfold Progress.meet at hmeet
  split at hmeet
  · next kind heffect =>
      obtain ⟨judged, hjudged, hresult⟩ := exists_of_bind_ok hmeet
      cases hresult
      refine ⟨(h.resolve hjudged).given, ?_⟩
      rintro _ ⟨⟩
      exact .inl ⟨option, hoption, rfl, heffect⟩
  · next kind text heffect =>
      obtain ⟨judged, hjudged, hrest⟩ := exists_of_bind_ok hmeet
      obtain ⟨given, hgiven, hresult⟩ := exists_of_bind_ok hrest
      cases hresult
      have hsuits := h.resolve hjudged
      exact ⟨hsuits.given.addValue (.inl ⟨option, hoption, rfl, heffect⟩) hgiven, hsuits.pending⟩
  · cases hmeet
  · obtain ⟨judged, hjudged, hresult⟩ := exists_of_bind_ok hmeet
    cases hresult
    have hsuits := h.resolve hjudged
    exact ⟨hsuits.given, hsuits.pending⟩
  · obtain ⟨judged, hjudged, hrest⟩ := exists_of_bind_ok hmeet
    obtain ⟨given, hgiven, hresult⟩ := exists_of_bind_ok hrest
    cases hresult
    have hsuits := h.resolve hjudged
    exact ⟨hsuits.given.addFlag hgiven, hsuits.pending⟩
  · obtain ⟨judged, hjudged, hresult⟩ := exists_of_bind_ok hmeet
    cases hresult
  · obtain ⟨judged, hjudged, hresult⟩ := exists_of_bind_ok hmeet
    cases hresult

/-- A text that an option waits for suits the grammar if the option does. -/
theorem supply {pending : Pending} {text : String} (h : progress.Suits grammar)
    (hwaiting : progress.waiting? = some pending) :
    (progress.supply pending text).Suits grammar := by
  have hpending : progress.pending = some pending := (Option.filter_eq_some_iff.mp hwaiting).1
  refine ⟨h.given, ?_⟩
  rintro _ ⟨⟩
  exact h.pending pending hpending

theorem meetLong {chars : List Char} (h : progress.Suits grammar)
    (hmeet : grammar.meetLong progress chars = .ok after) : after.Suits grammar := by
  unfold Grammar.meetLong at hmeet
  simp only at hmeet
  split at hmeet
  · cases hmeet
  · next option hfound => exact h.meet (List.mem_of_find?_eq_some hfound) hmeet

theorem meetShort {chars : List Char} (h : progress.Suits grammar)
    (hmeet : grammar.meetShort progress chars = .ok after) : after.Suits grammar := by
  induction chars generalizing progress with
  | nil =>
      cases hmeet
      exact h
  | cons c rest ih =>
      unfold Grammar.meetShort at hmeet
      split at hmeet
      · cases hmeet
      · next option hfound =>
          have hoption := List.mem_of_find?_eq_some hfound
          split at hmeet
          · exact h.meet hoption hmeet
          · exact h.meet hoption hmeet
          · exact h.meet hoption hmeet
          · obtain ⟨met, hmet, hrest⟩ := exists_of_bind_ok hmeet
            exact ih (h.meet hoption hmet) hrest

theorem meetPositional {text : String} (h : progress.Suits grammar)
    (hmeet : grammar.meetPositional progress text = .ok after) : after.Suits grammar := by
  unfold Grammar.meetPositional at hmeet
  split at hmeet
  · next name kind hfound =>
      obtain ⟨judged, hjudged, hresult⟩ := exists_of_bind_ok hmeet
      cases hresult
      refine ⟨(h.resolve hjudged).given, ?_⟩
      rintro _ ⟨⟩
      exact .inr (List.mem_of_getElem? hfound)
  · split at hmeet <;> cases hmeet

/-- Meeting any argument keeps to the grammar. -/
theorem meetArgument {argument : String} (h : progress.Suits grammar)
    (hmeet : grammar.meet progress argument = .ok after) : after.Suits grammar := by
  unfold Grammar.meet at hmeet
  split at hmeet
  · exact h.meetPositional hmeet
  · split at hmeet
    · cases hmeet
      exact ⟨h.given, h.pending⟩
    · exact h.meetLong hmeet
    · next hwaiting =>
        split at hmeet
        · cases hmeet
          exact h.supply hwaiting
        · exact h.meetShort hmeet
    · exact h.meetShort hmeet
    · next hwaiting _ _ _ =>
        cases hmeet
        exact h.supply hwaiting
    · exact h.meetPositional hmeet

/-- Reading any number of arguments keeps to the grammar. -/
theorem read {arguments : List String} {rest? : Option (String × List String)}
    (h : progress.Suits grammar) (hread : grammar.read progress arguments = .ok (after, rest?)) :
    after.Suits grammar := by
  induction arguments generalizing progress with
  | nil =>
      cases hread
      exact h
  | cons argument rest ih =>
      unfold Grammar.read at hread
      split at hread
      · cases hread
        exact h
      · obtain ⟨met, hmet, hrest⟩ := exists_of_bind_ok hread
        exact ih (h.meetArgument hmet) hrest

end Progress.Suits

/-- All that a command was given suits its grammar. -/
theorem suits_of_readAll {arguments : List String} {given : Given}
    (h : readAll grammar arguments = .ok given) : given.Suits grammar := by
  obtain ⟨⟨progress, rest?⟩, hread, hmore⟩ := exists_of_bind_ok h
  obtain ⟨judged, hjudged, hresult⟩ := exists_of_bind_ok hmore
  cases hresult
  have hfresh : ({} : Progress).Suits grammar := ⟨by simp [Given.Suits], by simp⟩
  exact ((hfresh.read hread).resolve hjudged).given

/-- A value that can be looked up is of a kind that the grammar takes under its name. -/
theorem Given.Suits.of_value? {given : Given} (h : given.Suits grammar) {name : String}
    {value : Value} (hvalue : given.value? name = some value) :
    ∃ kind, grammar.Takes name kind ∧ kind.Admits value := by
  obtain ⟨before, rest, hvalues, -⟩ := List.lookup_eq_some_iff.mp hvalue
  exact h (name, value) (by simp [hvalues])

end TableReplica.CommandLine
