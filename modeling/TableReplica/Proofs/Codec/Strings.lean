import TableReplica.Proofs.Codec.Canonical

/-!
# What a buffer says about a byte string

A byte string is read where its length is, and where all of its bytes are behind it. The place where
it ends is a sum of two words, which may be none: then the length is refused, however many bytes
come (`unpackString_eq_malformed_iff`). The verdict agrees with the one on the length in every other
case (`unpackString_eq_value_iff`). The main result is `unpackString_exact`. Indices have 64 bits, so
a buffer has fewer than 2 ^ 64 bytes.
-/

namespace TableReplica.Wire

open Format Transport

variable {string buffer : Bytes} {width size length : Nat}

/-- The verdict on a byte string whose length is known. -/
theorem unpackString_of_length (h : unpackUint buffer = .value size width) :
    unpackString buffer =
      if wordBound ≤ width + size then .malformed
      else if width + size ≤ buffer.length then
        .value ((buffer.drop width).take size) (width + size)
      else .needMore := by
  rw [unpackString, h]

/-- A byte string is read if its end is one of the buffer. -/
theorem unpackString_eq_value_iff (hbuffer : buffer.length < wordBound) :
    unpackString buffer = .value string length ↔
      ∃ size width, unpackUint buffer = .value size width ∧ width + size = length ∧
        length ≤ buffer.length ∧ string = (buffer.take length).drop width := by
  constructor
  · intro h
    cases hlength : unpackUint buffer with
    | needMore | malformed => simp [unpackString, hlength] at h
    | value size width =>
        rw [unpackString_of_length hlength] at h
        split at h
        · cases h
        · split at h
          · next hinside =>
              cases h
              refine ⟨size, width, rfl, rfl, hinside, ?_⟩
              rw [List.drop_take, Nat.add_sub_cancel_left]
          · cases h
  · rintro ⟨size, width, hlength, rfl, hinside, rfl⟩
    have hword : ¬ wordBound ≤ width + size := Nat.not_le.mpr (hinside.trans_lt hbuffer)
    rw [unpackString_of_length hlength, if_neg hword, if_pos hinside, List.drop_take,
      Nat.add_sub_cancel_left]

/-- A byte string is refused if its length is, or if its end is not a word. -/
theorem unpackString_eq_malformed_iff :
    unpackString buffer = .malformed ↔
      unpackUint buffer = .malformed ∨
        ∃ size width, unpackUint buffer = .value size width ∧ wordBound ≤ width + size := by
  cases hlength : unpackUint buffer with
  | needMore | malformed => simp [unpackString, hlength]
  | value size width =>
      rw [unpackString_of_length hlength]
      by_cases hword : wordBound ≤ width + size
      · simp [hword]
      · by_cases hinside : width + size ≤ buffer.length <;> simp [hword, hinside]

/-- A byte string that is written is read back, whatever comes after it. -/
theorem unpackString_packString (h : (packString string).length < wordBound) (tail : Bytes) :
    unpackString (packString string ++ tail) = .value string (packString string).length := by
  rw [packString, List.length_append] at h ⊢
  have hsize : string.length < wordBound := (Nat.le_add_left _ _).trans_lt h
  have hlength : unpackUint (packUint string.length ++ string ++ tail) =
      .value string.length (packUint string.length).length := by
    rw [List.append_assoc]
    exact (canonical_packUint hsize).decoded _
  have hinside : (packUint string.length).length + string.length ≤
      (packUint string.length ++ string ++ tail).length := by
    rw [List.length_append, List.length_append]
    omega
  rw [unpackString_of_length hlength, if_neg (Nat.not_le.mpr h), if_pos hinside,
    List.append_assoc, List.drop_left, List.take_left]

/-- Of a byte string that is written, no smaller part is enough. -/
theorem unpackString_of_isPrefix (h : (packString string).length < wordBound) {initial : Bytes}
    (hinitial : initial <+: packString string) (hproper : initial ≠ packString string) :
    unpackString initial = .needMore := by
  have hwhole : unpackString (packString string) = .value string (packString string).length := by
    simpa using unpackString_packString h []
  exact stable_unpackString.needMore_of_isPrefix hwhole hinitial hproper

/-- What reading a byte string from a buffer tells, with indices of 64 bits and without a fault: it
is read if its length is and its end is one of the buffer, it is refused if its length is or its end
needs more than 64 bits, and neither changes with the bytes that come after the buffer. -/
structure StringVerdict (buffer : Bytes) : Prop where
  checked : Machine.unpackString buffer = .ok (unpackString buffer)
  value_iff (string : Bytes) (length : Nat) : unpackString buffer = .value string length ↔
    ∃ size width, unpackUint buffer = .value size width ∧ width + size = length ∧
      length ≤ buffer.length ∧ string = (buffer.take length).drop width
  malformed_iff : unpackString buffer = .malformed ↔
    unpackUint buffer = .malformed ∨
      ∃ size width, unpackUint buffer = .value size width ∧ 2 ^ 64 ≤ width + size
  stable (tail : Bytes) : unpackString buffer ≠ .needMore →
    unpackString (buffer ++ tail) = unpackString buffer

/-- A byte string that is written is read back, and more bytes are asked for as long as one of its
bytes is missing. The verdict on any buffer is the one that its length field and its size give. -/
theorem unpackString_exact :
    (∀ string : Bytes, (packString string).length < 2 ^ 64 →
      (∀ tail, unpackString (packString string ++ tail) =
        .value string (packString string).length) ∧
      ∀ initial, initial <+: packString string → initial ≠ packString string →
        unpackString initial = .needMore) ∧
      ∀ buffer : Bytes, buffer.length < 2 ^ 64 → StringVerdict buffer := by
  refine ⟨fun string hstring => ⟨unpackString_packString hstring,
    fun initial => unpackString_of_isPrefix hstring⟩, fun buffer hbuffer => ?_⟩
  exact {
    checked := Machine.unpackString_eq buffer
    value_iff _ _ := unpackString_eq_value_iff hbuffer
    malformed_iff := unpackString_eq_malformed_iff
    stable tail hverdict := stable_unpackString.append (Decoded.settled_iff.mpr hverdict) tail }

/-- The largest length that can be written is refused at once: the end of the byte string is beyond
the last index. -/
theorem unpackString_exact_largest :
    unpackString (packString [1, 2, 3] ++ [4]) = .value [1, 2, 3] 4 ∧
      unpackString [3, 1, 2] = .needMore ∧
      unpackString largestWord = .malformed ∧
      unpackString (largestWord ++ [1]) = unpackString largestWord := by
  have hwritten : packString [1, 2, 3] = [3, 1, 2, 3] := by decide +kernel
  obtain ⟨hread, hshort⟩ := unpackString_exact.1 [1, 2, 3] (by rw [hwritten]; decide)
  rw [hwritten] at hread hshort ⊢
  have hverdict : StringVerdict largestWord := unpackString_exact.2 largestWord (by decide)
  have hrefused : unpackString largestWord = .malformed :=
    hverdict.malformed_iff.mpr (.inr ⟨2 ^ 64 - 1, 10, by decide +kernel, by decide⟩)
  exact ⟨hread [4], hshort [3, 1, 2] (by decide) (by decide), hrefused,
    hverdict.stable [1] (by simp [hrefused])⟩

end TableReplica.Wire
