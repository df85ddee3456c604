import Mathlib
import TableReplica.Text.Integer

/-!
# Integers in decimal text

One or more digits are read as the number that they stand for in base ten (`natural?_eq_some_iff`),
so a number in decimal text is read back (`unsigned?_toString`). An integer may have a sign in front
of its digits, and is refused if it does not fit (`signed?_eq_some_iff`). Nothing that is read as an
integer has white space at its ends (`trim_of_signed?`).
-/

namespace TableReplica.Text

variable {chars : List Char} {number : Nat}

theorem isDigit_iff {c : Char} : c.isDigit = true ↔ '0' ≤ c ∧ c ≤ '9' := by
  simp only [Char.isDigit, Bool.and_eq_true, decide_eq_true_eq]
  exact Iff.rfl

theorem digit?_of_isDigit {c : Char} (h : c.isDigit = true) :
    digit? c = some (c.toNat - '0'.toNat) :=
  if_pos (isDigit_iff.mp h)

theorem digit?_of_not_isDigit {c : Char} (h : ¬ c.isDigit = true) : digit? c = none :=
  if_neg (mt isDigit_iff.mpr h)

/-- All of a text has to be digits, which go on with the number before them. -/
theorem digitsFrom?_eq_some_iff {value : Nat} :
    digitsFrom? value chars = some number ↔
      (∀ c ∈ chars, c.isDigit = true) ∧ Nat.ofDigitChars 10 chars value = number := by
  induction chars generalizing value with
  | nil => simp [digitsFrom?]
  | cons c rest ih =>
      by_cases hdigit : c.isDigit = true
      · simp only [digitsFrom?, digit?_of_isDigit hdigit, Option.bind_eq_bind, Option.bind_some, ih,
          List.forall_mem_cons, hdigit, true_and, Nat.ofDigitChars_cons]
      · simp [digitsFrom?, digit?_of_not_isDigit hdigit, hdigit]

/-- One or more digits are read as the number that they stand for. -/
theorem natural?_eq_some_iff :
    natural? chars = some number ↔
      chars ≠ [] ∧ (∀ c ∈ chars, c.isDigit = true) ∧ Nat.ofDigitChars 10 chars 0 = number := by
  cases chars with
  | nil => simp [natural?]
  | cons c rest =>
      rw [natural?, digitsFrom?_eq_some_iff]
      · simp
      · simp

/-- A number is read back from its digits. -/
theorem natural?_toDigits (number : Nat) : natural? (Nat.toDigits 10 number) = some number := by
  refine natural?_eq_some_iff.mpr ⟨Nat.toDigits_ne_nil, fun c hc => ?_,
    Nat.ofDigitChars_ten_toDigits⟩
  exact Nat.isDigit_of_mem_toDigits (by decide) (by decide) hc

/-- A number that fits is read back from its text. -/
theorem unsigned?_toString (h : number < UInt64.size) :
    unsigned? (toString number).toList = some number := by
  rw [Nat.toString_eq_repr, Nat.toList_repr]
  unfold unsigned?
  split
  · next rest hrest =>
      have hsign : '+'.isDigit = true :=
        Nat.isDigit_of_mem_toDigits (b := 10) (n := number) (by decide) (by decide)
          (by simp [hrest])
      exact absurd hsign (by decide)
  · simp only [natural?_toDigits, Option.bind_eq_bind, Option.bind_some, if_pos h]

theorem unsigned?_lt (h : unsigned? chars = some number) : number < UInt64.size := by
  obtain ⟨value, -, hvalue⟩ := Option.bind_eq_some_iff.mp h
  split at hvalue
  · next hfits =>
      cases hvalue
      exact hfits
  · cases hvalue

/-- An integer that is read has an optional sign in front of its digits, and fits. -/
theorem exists_of_signed? {number : Int} (h : signed? chars = some number) :
    ∃ (sign : Option Char) (digits : List Char) (value : Nat),
      chars = sign.toList ++ digits ∧ (∀ c ∈ sign, c = '-' ∨ c = '+') ∧
        natural? digits = some value ∧
        number = (if sign = some '-' then -(value : Int) else value) ∧
        fitsSigned number = true := by
  have hfitting {found? : Option Int} (hfound : (found?.bind fun value =>
      if fitsSigned value = true then some value else none) = some number) :
      found? = some number ∧ fitsSigned number = true := by
    obtain ⟨value, rfl, hvalue⟩ := Option.bind_eq_some_iff.mp hfound
    obtain ⟨hfits, hsome⟩ := Option.ite_none_right_eq_some.mp hvalue
    cases hsome
    exact ⟨rfl, hfits⟩
  unfold signed? at h
  split at h
  · next rest =>
      obtain ⟨hnumber, hfits⟩ := hfitting h
      obtain ⟨_, hnatural, rfl⟩ := Option.map_eq_some_iff.mp hnumber
      obtain ⟨value, hvalue, hsome⟩ := Option.bind_eq_some_iff.mp hnatural
      cases hsome
      exact ⟨some '-', rest, value, rfl, by simp, hvalue, rfl, hfits⟩
  · next rest =>
      obtain ⟨hnumber, hfits⟩ := hfitting h
      obtain ⟨value, hvalue, rfl⟩ := Option.map_eq_some_iff.mp hnumber
      exact ⟨some '+', rest, value, rfl, by simp, hvalue, rfl, hfits⟩
  · obtain ⟨hnumber, hfits⟩ := hfitting h
    obtain ⟨value, hvalue, rfl⟩ := Option.map_eq_some_iff.mp hnumber
    exact ⟨none, chars, value, rfl, by simp, hvalue, rfl, hfits⟩

theorem isBlank_eq_false_of_isDigit {c : Char} (h : c.isDigit = true) : isBlank c = false := by
  have hrange : 48 ≤ c.toNat ∧ c.toNat ≤ 57 := isDigit_iff.mp h
  simp only [isBlank, Bool.or_eq_false_iff, Bool.and_eq_false_iff, beq_eq_false_iff_ne,
    decide_eq_false_iff_not]
  omega

/-- There is no white space in a text that is read as an integer. -/
theorem isBlank_eq_false_of_signed? {number : Int} (h : signed? chars = some number) {c : Char}
    (hc : c ∈ chars) : isBlank c = false := by
  obtain ⟨sign, digits, value, rfl, hsign, hvalue, -⟩ := exists_of_signed? h
  rcases List.mem_append.mp hc with hc | hc
  · rcases hsign c (Option.mem_toList.mp hc) with rfl | rfl <;> decide
  · exact isBlank_eq_false_of_isDigit ((natural?_eq_some_iff.mp hvalue).2.1 c hc)

/-- There is no white space to trim from a text that is read as an integer. -/
theorem trim_of_signed? {number : Int} (h : signed? chars = some number) : trim chars = chars := by
  have hkept {kept : List Char} (hkept : ∀ c ∈ kept, c ∈ chars) :
      kept.dropWhile isBlank = kept := by
    refine List.dropWhile_eq_self_iff.mpr fun hlength => ?_
    simp [isBlank_eq_false_of_signed? h (hkept _ (List.getElem_mem hlength))]
  rw [trim, hkept fun _ hc => hc, trimEnd, hkept fun _ hc => List.mem_reverse.mp hc,
    List.reverse_reverse]

end TableReplica.Text
