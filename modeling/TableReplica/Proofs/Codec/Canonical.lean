import TableReplica.Proofs.Codec.Digits
import TableReplica.Proofs.Format.Numerals

/-!
# The shortest spelling of an integer

Bytes that add nothing may come at the end of an integer, so it has several spellings, and
`packUint` writes the shortest of them. It is the only one that is one byte long or ends with a byte
other than zero (`eq_packUint_of_unpackUintFrom`). `Canonical` collects what makes it the inverse of
reading. No integer written goes on in the bytes of another one, so integers written one after the
other are read back (`unpackUints`). The main result is `packUint_canonical`.
-/

namespace TableReplica.Wire

open Format Transport

/-- A byte before the last one of an integer is what it carries with the high bit set. -/
theorem toUInt8_payload_more {byte : UInt8} (h : ¬ byte < 128) :
    (payload byte + 128).toUInt8 = byte := by
  have hsize : byte.toNat < 256 := byte.toNat_lt
  have hhigh : ¬ byte.toNat < 128 := h
  have hbyte : payload byte + 128 = byte.toNat := by
    show byte.toNat % 128 + 128 = byte.toNat
    omega
  rw [hbyte]
  exact UInt8.ofNat_toNat

/-- The last byte of an integer is what it carries. -/
theorem toUInt8_payload_last {byte : UInt8} (h : byte < 128) : (payload byte).toUInt8 = byte := by
  have hbyte : payload byte = byte.toNat := Nat.mod_eq_of_lt h
  rw [hbyte]
  exact UInt8.ofNat_toNat

theorem packUint_ne_nil (value : Nat) : packUint value ≠ [] := by
  rw [packUint]
  split <;> simp

theorem packUint_of_lt {value : Nat} (h : value < 128) : packUint value = [value.toUInt8] := by
  rw [packUint, if_pos h]

theorem packUint_zero : packUint 0 = [0] :=
  packUint_of_lt (by decide)

theorem packUint_of_digits {digit : Nat} (hdigit : digit < 128) {more : Nat} (hmore : more ≠ 0) :
    packUint (digit + 128 * more) = (digit + 128).toUInt8 :: packUint more := by
  have hlow : (digit + 128 * more) % 128 = digit := by omega
  have hhigh : (digit + 128 * more) / 128 = more := by omega
  rw [packUint, if_neg (by omega), hlow, hhigh]

/-- What is written of a positive integer does not end with zero. -/
theorem getLast?_packUint {value : Nat} (h : value ≠ 0) : (packUint value).getLast? ≠ some 0 := by
  fun_induction packUint value with
  | case1 value hsmall =>
      rw [List.getLast?_singleton]
      intro hzero
      have hbyte : value.toUInt8.toNat = 0 := congrArg UInt8.toNat (Option.some.inj hzero)
      have hvalue : value.toUInt8.toNat = value := Nat.mod_eq_of_lt (by omega)
      omega
  | case2 value hlarge ih =>
      rw [List.getLast?_cons_of_ne_nil (packUint_ne_nil _)]
      exact ih (by omega)

variable {shift value length : Nat} {bytes : Bytes}

/-- No spelling of an integer is shorter than what is written of it. -/
theorem length_packUint_le (h : unpackUintFrom shift bytes = .value value length) :
    (packUint value).length ≤ length := by
  induction bytes generalizing shift value length with
  | nil => cases h
  | cons byte rest ih =>
      have hdigit : payload byte < 128 := Nat.mod_lt _ (by decide)
      obtain ⟨-, ⟨-, rfl, rfl⟩ | ⟨-, more, count, hrest, rfl, rfl⟩⟩ :=
        unpackUintFrom_cons_eq_value.mp h
      · rw [packUint_of_lt hdigit]
        rfl
      · have hmore : (packUint more).length ≤ count := ih hrest
        -- Later bytes that add nothing are not written.
        by_cases hzero : more = 0
        · rw [hzero, Nat.mul_zero, Nat.add_zero, packUint_of_lt hdigit]
          exact Nat.succ_le_succ (Nat.zero_le count)
        · rw [packUint_of_digits hdigit hzero, List.length_cons]
          omega

/-- A spelling without bytes that add nothing is what is written. -/
theorem eq_packUint_of_unpackUintFrom (h : unpackUintFrom shift bytes = .value value bytes.length)
    (hlast : bytes.length = 1 ∨ bytes.getLast? ≠ some 0) : bytes = packUint value := by
  induction bytes generalizing shift value with
  | nil => cases h
  | cons byte rest ih =>
      have hdigit : payload byte < 128 := Nat.mod_lt _ (by decide)
      obtain ⟨-, ⟨hless, rfl, hlength⟩ | ⟨hmore, more, count, hrest, rfl, hlength⟩⟩ :=
        unpackUintFrom_cons_eq_value.mp h
      · have hnil : rest = [] := List.length_eq_zero_iff.mp (Nat.succ.inj hlength)
        rw [hnil, packUint_of_lt hdigit, toUInt8_payload_last hless]
      · obtain rfl : rest.length = count := Nat.succ.inj hlength
        have hpositive : 1 ≤ rest.length := (unpackUintFrom_length hrest).1
        have hne : rest ≠ [] := List.length_pos_iff.mp hpositive
        have hend : rest.getLast? ≠ some 0 := by
          rcases hlast with hone | hend
          · rw [List.length_cons] at hone
            omega
          · rwa [List.getLast?_cons_of_ne_nil hne] at hend
        have htail : rest = packUint more := ih hrest (.inr hend)
        -- An integer whose later bytes add nothing would end with the zero that these are.
        have hzero : more ≠ 0 := by
          rintro rfl
          exact hend (by rw [htail, packUint_zero]; rfl)
        rw [packUint_of_digits hdigit hzero, toUInt8_payload_more hmore, ← htail]

/-- A spelling is the canonical one of an integer: it is read back with any bytes after it, it is
too short if any byte of it is missing, no spelling is shorter, and it is the one spelling that is
one byte long or does not end with zero. -/
structure Canonical (value : Nat) (spelling : Bytes) : Prop where
  decoded (tail : Bytes) : unpackUint (spelling ++ tail) = .value value spelling.length
  undecided (initial : Bytes) : initial <+: spelling → initial ≠ spelling →
    unpackUint initial = .needMore
  shortest (bytes : Bytes) (length : Nat) : unpackUint bytes = .value value length →
    spelling.length ≤ length ∧ length ≤ bytes.length
  recognized (bytes : Bytes) : unpackUint bytes = .value value bytes.length →
    (bytes = spelling ↔ bytes.length = 1 ∨ bytes.getLast? ≠ some 0)

theorem canonical_packUint (h : value < wordBound) : Canonical value (packUint value) where
  decoded := (Numeral.written value h).unpack_append
  undecided _ := stable_unpackUint.needMore_of_isPrefix (Numeral.written value h).spells
  shortest _ _ hbytes := ⟨length_packUint_le hbytes, (unpackUint_length hbytes).2⟩
  recognized bytes hbytes := by
    refine ⟨?_, eq_packUint_of_unpackUintFrom hbytes⟩
    rintro rfl
    by_cases hzero : value = 0
    · rw [hzero, packUint_zero]
      exact .inl rfl
    · exact .inr (getLast?_packUint hzero)

/-- No integer written goes on in the bytes of another one. -/
theorem eq_of_packUint_isPrefix {first second : Nat} (hfirst : first < wordBound)
    (hsecond : second < wordBound) (h : packUint first <+: packUint second) : first = second := by
  obtain ⟨rest, hrest⟩ := h
  have hsame : (Numeral.written first hfirst).spelling ++ rest =
      (Numeral.written second hsecond).spelling ++ [] := by
    rw [List.append_nil]
    exact hrest
  exact congrArg Numeral.value (Numeral.unambiguous hsame).1

/-- Read as many integers as are asked for from the front of a buffer. The answer has the bytes that
are left, too. -/
def unpackUints : Nat → Bytes → Option (List Nat × Bytes)
  | 0, buffer => some ([], buffer)
  | count + 1, buffer =>
    match unpackUint buffer with
    | .value value length =>
      (unpackUints count (buffer.drop length)).map fun (values, rest) => (value :: values, rest)
    | _ => none

/-- Integers written one after the other are read back, and the bytes after them are left. -/
theorem unpackUints_flatMap {values : List Nat} (h : ∀ value ∈ values, value < wordBound)
    (tail : Bytes) :
    unpackUints values.length (values.flatMap packUint ++ tail) = some (values, tail) := by
  induction values with
  | nil => rfl
  | cons value values ih =>
      obtain ⟨hvalue, hvalues⟩ := List.forall_mem_cons.mp h
      rw [List.flatMap_cons, List.append_assoc, List.length_cons, unpackUints,
        (canonical_packUint hvalue).decoded]
      simp only [List.drop_left, ih hvalues, Option.map_some]

/-- Every word has a canonical spelling, which is what is written of it, in the bits of one word
too. No word written is the beginning of another one, and words written one after the other are read
back as they are, whatever comes after them. -/
theorem packUint_canonical :
    (∀ value < 2 ^ 64, Canonical value (packUint value) ∧
        Machine.packUint value = .ok (packUint value)) ∧
      (∀ first < 2 ^ 64, ∀ second < 2 ^ 64, packUint first <+: packUint second →
        first = second) ∧
      ∀ (values : List Nat) (tail : Bytes), (∀ value ∈ values, value < 2 ^ 64) →
        unpackUints values.length (values.flatMap packUint ++ tail) = some (values, tail) :=
  ⟨fun value hvalue => ⟨canonical_packUint hvalue, Machine.packUint_eq value⟩,
    fun _ hfirst _ hsecond hprefix => eq_of_packUint_isPrefix hfirst hsecond hprefix,
    fun _ tail hvalues => unpackUints_flatMap hvalues tail⟩

/-- The integer 300 is written in two bytes, and three bytes with a zero at the end say the same. -/
theorem packUint_canonical_padded :
    unpackUint (packUint 300 ++ [0xff]) = .value 300 2 ∧
      unpackUint [0xac, 0x82, 0x00] = .value 300 3 ∧ [0xac, 0x82, 0x00] ≠ packUint 300 ∧
      unpackUints 3 ([0, 300, 2 ^ 64 - 1].flatMap packUint ++ [7]) =
        some ([0, 300, 2 ^ 64 - 1], [7]) := by
  have hcanonical : Canonical 300 (packUint 300) := (packUint_canonical.1 300 (by decide)).1
  have hpadded : unpackUint [0xac, 0x82, 0x00] = .value 300 3 := by decide +kernel
  have hother : [0xac, 0x82, 0x00] ≠ packUint 300 := by
    intro hsame
    have hlast := (hcanonical.recognized _ hpadded).mp hsame
    exact absurd hlast (by decide)
  have hlength : (packUint 300).length = 2 := by decide +kernel
  exact ⟨hlength ▸ hcanonical.decoded _, hpadded, hother,
    packUint_canonical.2.2 [0, 300, 2 ^ 64 - 1] [7] (by decide)⟩

end TableReplica.Wire
