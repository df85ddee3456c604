import TableReplica.Proofs.Codec.Digits
import TableReplica.Proofs.Stream.Field
import TableReplica.Wire.Varint

/-!
# Spellings of integers

An integer can be written on the wire in more than one way, since bytes that add nothing may come at
its end. A `Numeral` is an integer with one of its spellings. Reading one takes its spelling and
nothing else (`Numeral.unpack_append`), whatever is read is a numeral (`exists_numeral`), and what
the writer writes of an integer below the word bound is a spelling of it (`Numeral.written`).
-/

namespace TableReplica.Format

open Transport Wire

/-- An integer in one of its spellings. -/
structure Numeral where
  value : Nat
  spelling : Bytes
  spells : unpackUint spelling = .value value spelling.length
  deriving DecidableEq

namespace Numeral

/-- Whatever comes after a numeral, reading it gives its value and takes its spelling. -/
theorem unpack_append (numeral : Numeral) (rest : Bytes) :
    unpackUint (numeral.spelling ++ rest) = .value numeral.value numeral.spelling.length := by
  rw [unpackUint_append (by simp [numeral.spells, Decoded.settled]), numeral.spells]

theorem spelling_ne_nil (numeral : Numeral) : numeral.spelling ≠ [] := by
  intro hnil
  have hspells := numeral.spells
  rw [hnil] at hspells
  cases hspells

/-- A spelling has ten bytes at most. -/
theorem spelling_length_le (numeral : Numeral) : numeral.spelling.length ≤ 10 :=
  (unpackUint_eq_value_iff.mp numeral.spells).2.1

/-- The value is one of a word. -/
theorem value_lt (numeral : Numeral) : numeral.value < wordBound :=
  (unpackUint_eq_value_iff.mp numeral.spells).2.2.2

/-- Bytes start with one numeral at most. -/
theorem unambiguous {first second : Numeral} {rest other : Bytes}
    (h : first.spelling ++ rest = second.spelling ++ other) : first = second ∧ rest = other := by
  have hread := first.unpack_append rest
  rw [h, second.unpack_append] at hread
  injection hread with hvalue hlength
  obtain ⟨hspelling, hrest⟩ := List.append_inj h hlength.symm
  obtain ⟨value, spelling, spells⟩ := first
  obtain ⟨_, _, _⟩ := second
  cases hvalue
  cases hspelling
  exact ⟨rfl, hrest⟩

/-- Bytes start in one way at most with a number and as many bytes. -/
theorem counted_unambiguous {first second : Numeral} {content contents rest other : Bytes}
    (hfirst : first.value = content.length) (hsecond : second.value = contents.length)
    (h : first.spelling ++ content ++ rest = second.spelling ++ contents ++ other) :
    first = second ∧ content = contents ∧ rest = other := by
  rw [List.append_assoc, List.append_assoc] at h
  obtain ⟨rfl, hmore⟩ := unambiguous h
  exact ⟨rfl, List.append_inj hmore (hfirst.symm.trans hsecond)⟩

end Numeral

/-- Bytes of which an integer was read start with a numeral of this value. -/
theorem exists_numeral {buffer : Bytes} {value length : Nat}
    (h : unpackUint buffer = .value value length) :
    ∃ numeral : Numeral, numeral.value = value ∧ numeral.spelling = buffer.take length := by
  have hlength : (buffer.take length).length = length :=
    List.length_take_of_le (unpackUint_length h).2
  refine ⟨⟨value, buffer.take length, ?_⟩, rfl, rfl⟩
  rw [hlength]
  exact unpackUint_take h

/-- A number that is ahead is read, in whichever way it is spelled. -/
theorem readUint_of_ahead (what : String) (numeral : Numeral) {cursor : Cursor} {rest : Bytes}
    (h : cursor.ahead = numeral.spelling ++ rest) :
    ∃ after, cursor.readUint what = (.ok numeral.value, after) ∧
      after.position = {
        ahead := rest
        pending := cursor.pending ++ numeral.spelling
        committed := cursor.committed } ∧
      after.ending = cursor.ending := by
  have hfield : Verdict.uint what cursor.ahead = .ok (numeral.value, numeral.spelling.length) := by
    simp only [Verdict.uint, Verdict.ofDecoder, h, numeral.unpack_append rest]
  obtain ⟨after, hread, hposition, hending⟩ := (Cursor.follows_readUint what).of_ok hfield
  refine ⟨after, hread, ?_, hending⟩
  rw [hposition]
  simp [Position.advance, Cursor.position, h]

/-- Without a number ahead none is read. -/
theorem readUint_of_none (what : String) {cursor : Cursor}
    (h : ∀ (numeral : Numeral) (rest : Bytes), cursor.ahead ≠ numeral.spelling ++ rest) :
    ∃ error after, cursor.readUint what = (.error error, after) := by
  cases hfield : Verdict.uint what cursor.ahead with
  | error stop =>
      obtain ⟨after, hread⟩ := (Cursor.follows_readUint what).of_error hfield
      exact ⟨_, after, hread⟩
  | ok found =>
      unfold Verdict.uint Verdict.ofDecoder at hfield
      split at hfield
      · next value length hvalue =>
          obtain ⟨numeral, -, hspelling⟩ := exists_numeral hvalue
          refine absurd ?_ (h numeral (cursor.ahead.drop length))
          rw [hspelling, List.take_append_drop]
      · cases hfield
      · cases hfield

/-- A byte of an integer before its last one carries seven bits and says that there are more. -/
theorem payload_more (value : Nat) : payload (value % 128 + 128).toUInt8 = value % 128 ∧
    ¬ (value % 128 + 128).toUInt8 < 128 := by
  have hbyte : (value % 128 + 128).toUInt8.toNat = value % 128 + 128 :=
    Nat.mod_eq_of_lt (by omega)
  refine ⟨by rw [payload, hbyte]; omega, fun hless => ?_⟩
  have hbound := UInt8.lt_iff_toNat_lt.mp hless
  rw [hbyte] at hbound
  have hnum : (128 : UInt8).toNat = 128 := rfl
  omega

theorem payload_last {value : Nat} (h : value < 128) : payload value.toUInt8 = value ∧
    value.toUInt8 < 128 := by
  have hbyte : value.toUInt8.toNat = value := Nat.mod_eq_of_lt (by omega)
  refine ⟨by rw [payload, hbyte]; omega, ?_⟩
  rw [UInt8.lt_iff_toNat_lt, hbyte]
  exact h

/-- What is written of an integer that fits is read back. -/
theorem unpackUintFrom_packUint {shift value : Nat} (hshift : shift < 64)
    (hvalue : value * 2 ^ shift < wordBound) :
    unpackUintFrom shift (packUint value) = .value value (packUint value).length := by
  have hword : wordBound = 2 ^ 64 := rfl
  fun_induction packUint value generalizing shift with
  | case1 value hsmall =>
      obtain ⟨hpayload, hlast⟩ := payload_last hsmall
      have hfits : fits shift value.toUInt8 = true := by
        simp [fits, hpayload, hshift, Nat.shiftLeft_eq, hvalue]
      rw [unpackUintFrom, if_pos hfits, if_pos hlast, hpayload]
      rfl
  | case2 value hlarge ih =>
      obtain ⟨hpayload, hmore⟩ := payload_more value
      have hlow : value % 128 * 2 ^ shift < wordBound :=
        Nat.lt_of_le_of_lt (Nat.mul_le_mul_right _ (Nat.mod_le _ _)) hvalue
      have hfits : fits shift (value % 128 + 128).toUInt8 = true := by
        rw [fits, hpayload, Nat.shiftLeft_eq]
        simp [hshift, hlow]
      -- The bits that are left, moved up by seven, are no more than the whole.
      have hhigh : value / 128 * 2 ^ (shift + 7) ≤ value * 2 ^ shift := by
        rw [Nat.pow_add, Nat.mul_comm (2 ^ shift), ← Nat.mul_assoc]
        exact Nat.mul_le_mul_right _ (Nat.div_mul_le_self value 128)
      -- There are some left, so they start below bit 64.
      have hnext : shift + 7 < 64 := by
        have hpower : 2 ^ (shift + 7) ≤ value / 128 * 2 ^ (shift + 7) :=
          Nat.le_mul_of_pos_left _ (by omega)
        exact (Nat.pow_lt_pow_iff_right (show 1 < 2 by decide)).mp (by omega)
      rw [unpackUintFrom, if_pos hfits, if_neg hmore, ih hnext (by omega)]
      simp only [hpayload, List.length_cons]
      rw [Nat.mod_add_div]

/-- The spelling that the writer gives an integer. -/
def Numeral.written (value : Nat) (h : value < wordBound) : Numeral where
  value
  spelling := packUint value
  spells := unpackUintFrom_packUint (by decide) (by simpa using h)

end TableReplica.Format
