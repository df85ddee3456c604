import TableReplica.Proofs.Machine.Words

/-!
# What the bytes of an integer say

An integer on the wire is a number in base 128, its lowest digit first, and the byte without the
high bit is the last one. `denoted` is that number as a sum over the bytes, with no limit to its
size, and `extent?` tells where the bytes end. An integer is read if and only if it ends within ten
bytes and its number is one of a word (`unpackUint_eq_value_iff`). More bytes are asked for as long
as none of them is the last, they are ten at most and what they say so far fits into a word
(`unpackUint_eq_needMore_iff`). The main result is `unpackUint_exact`.
-/

namespace TableReplica.Wire

/-- The number that bytes denote: byte `i` has seven bits, which count from bit `7 * i` on. -/
def denoted (bytes : Bytes) : Nat :=
  ∑ index : Fin bytes.length, (bytes[index] &&& 0x7f).toNat * 2 ^ (7 * index.val)

/-- The number of bytes up to the first one without the high bit, which counts too. -/
def extent? (buffer : Bytes) : Option Nat :=
  (buffer.findIdx? fun byte => byte &&& 0x80 = 0).map (· + 1)

@[simp] theorem denoted_nil : denoted [] = 0 :=
  rfl

/-- The first byte counts once, those after it 128 times. -/
theorem denoted_cons (byte : UInt8) (rest : Bytes) :
    denoted (byte :: rest) = payload byte + 128 * denoted rest := by
  calc denoted (byte :: rest)
      _ = (byte &&& 0x7f).toNat * 2 ^ (7 * 0) +
          ∑ index : Fin rest.length,
            ((byte :: rest)[index.succ] &&& 0x7f).toNat * 2 ^ (7 * index.succ.val) :=
        Fin.sum_univ_succ _
      _ = payload byte +
          ∑ index : Fin rest.length, 128 * ((rest[index] &&& 0x7f).toNat * 2 ^ (7 * index.val)) := by
        rw [Machine.toNat_low, Nat.mul_zero, pow_zero, mul_one]
        congr 1
        refine Finset.sum_congr rfl fun index _ => ?_
        simp only [Fin.getElem_fin, Fin.val_succ, List.getElem_cons_succ, Nat.mul_succ, pow_add]
        ring
      _ = payload byte + 128 * denoted rest := by rw [← Finset.mul_sum, denoted]

/-- The bytes after others count from where those end. -/
theorem denoted_append (front rest : Bytes) :
    denoted (front ++ rest) = denoted front + 128 ^ front.length * denoted rest := by
  induction front with
  | nil => simp
  | cons byte front ih =>
      rw [List.cons_append, denoted_cons, denoted_cons, ih, List.length_cons, Nat.pow_succ]
      ring

/-- An integer ends with its first byte if that says so. -/
theorem extent?_cons (byte : UInt8) (rest : Bytes) :
    extent? (byte :: rest) = if byte < 128 then some 1 else (extent? rest).map (· + 1) := by
  unfold extent?
  rw [List.findIdx?_cons]
  by_cases hlast : byte < 128
  · simp [Machine.high_eq_zero_iff, hlast]
  · simp [Machine.high_eq_zero_iff, hlast]

variable {shift value length : Nat} {byte : UInt8} {buffer rest : Bytes}

/-- The bytes of an integer end where it does. -/
theorem extent?_take (h : extent? buffer = some length) :
    extent? (buffer.take length) = some length := by
  induction buffer generalizing length with
  | nil => cases h
  | cons byte rest ih =>
      rw [extent?_cons] at h
      by_cases hlast : byte < 128
      · rw [if_pos hlast] at h
        obtain rfl : 1 = length := Option.some.inj h
        rw [List.take_succ_cons, extent?_cons, if_pos hlast]
      · rw [if_neg hlast] at h
        obtain ⟨count, hcount, rfl⟩ := Option.map_eq_some_iff.mp h
        rw [List.take_succ_cons, extent?_cons, if_neg hlast, ih hcount]
        rfl

/-- A byte fits if it starts within a word and its bits stay below the bound. -/
theorem fits_iff : fits shift byte = true ↔ shift < 64 ∧ payload byte * 2 ^ shift < wordBound := by
  simp [fits, Nat.shiftLeft_eq]

/-- An integer is one byte, or one byte before an integer that counts from seven bits later. -/
theorem unpackUintFrom_cons_eq_value :
    unpackUintFrom shift (byte :: rest) = .value value length ↔
      fits shift byte = true ∧
        (byte < 128 ∧ value = payload byte ∧ length = 1 ∨
          ¬ byte < 128 ∧ ∃ more count, unpackUintFrom (shift + 7) rest = .value more count ∧
            value = payload byte + 128 * more ∧ length = count + 1) := by
  rw [unpackUintFrom]
  by_cases hfits : fits shift byte = true
  · by_cases hlast : byte < 128
    · simp [hfits, hlast, eq_comm]
    · cases hrest : unpackUintFrom (shift + 7) rest <;> simp [hfits, hlast, eq_comm]
  · simp [hfits]

/-- More is asked for if the first byte fits and says so, and those after it ask for more. -/
theorem unpackUintFrom_cons_eq_needMore :
    unpackUintFrom shift (byte :: rest) = .needMore ↔
      fits shift byte = true ∧ ¬ byte < 128 ∧ unpackUintFrom (shift + 7) rest = .needMore := by
  rw [unpackUintFrom]
  by_cases hfits : fits shift byte = true
  · by_cases hlast : byte < 128
    · simp [hfits, hlast]
    · cases hrest : unpackUintFrom (shift + 7) rest <;> simp [hfits, hlast]
  · simp [hfits]

/-- A word has room for seven bits below any bits that it has room for. -/
theorem room_below {digit more : Nat} (hdigit : digit < 128) (hshift : shift + 7 ≤ 64)
    (hmore : more * 2 ^ (shift + 7) < wordBound) :
    (digit + 128 * more) * 2 ^ shift < wordBound := by
  have hword : wordBound = 2 ^ (64 - (shift + 7)) * 2 ^ (shift + 7) := by
    rw [← pow_add, Nat.sub_add_cancel hshift]
    rfl
  have hless : more < 2 ^ (64 - (shift + 7)) := by
    rw [hword] at hmore
    exact Nat.lt_of_mul_lt_mul_right hmore
  calc (digit + 128 * more) * 2 ^ shift
      _ < 128 * (more + 1) * 2 ^ shift := Nat.mul_lt_mul_of_pos_right (by omega) (by positivity)
      _ = (more + 1) * 2 ^ (shift + 7) := by rw [pow_add]; ring
      _ ≤ 2 ^ (64 - (shift + 7)) * 2 ^ (shift + 7) := Nat.mul_le_mul_right _ hless
      _ = wordBound := hword.symm

/-- A number of several digits that fits leaves room for each of its parts. -/
theorem parts_fit {digit more : Nat} (h : (digit + 128 * more) * 2 ^ shift < wordBound) :
    digit * 2 ^ shift < wordBound ∧ more * 2 ^ (shift + 7) < wordBound := by
  have hsplit : (digit + 128 * more) * 2 ^ shift =
      digit * 2 ^ shift + more * 2 ^ (shift + 7) := by
    rw [pow_add]
    ring
  omega

/-- What reading an integer gives whose first byte counts from bit `shift`. The bytes are taken one
by one, and the bits of those before a byte leave room for it. -/
theorem unpackUintFrom_eq_value_iff :
    unpackUintFrom shift buffer = .value value length ↔
      extent? buffer = some length ∧ shift + 7 * length < 71 ∧
        denoted (buffer.take length) = value ∧ value * 2 ^ shift < wordBound := by
  induction buffer generalizing shift value length with
  | nil => simp [unpackUintFrom, extent?]
  | cons byte rest ih =>
      have hdigit : payload byte < 128 := Nat.mod_lt _ (by decide)
      rw [unpackUintFrom_cons_eq_value, fits_iff, extent?_cons]
      by_cases hlast : byte < 128
      · rw [if_pos hlast]
        constructor
        · rintro ⟨⟨hshift, hfits⟩, ⟨-, rfl, rfl⟩ | ⟨hmore, -⟩⟩
          · exact ⟨rfl, by omega, by simp [denoted_cons], hfits⟩
          · exact absurd hlast hmore
        · rintro ⟨hlength, hshift, hvalue, hfits⟩
          obtain rfl : 1 = length := Option.some.inj hlength
          obtain rfl : payload byte = value := by simpa [denoted_cons] using hvalue
          exact ⟨⟨by omega, hfits⟩, .inl ⟨hlast, rfl, rfl⟩⟩
      · rw [if_neg hlast]
        constructor
        · rintro ⟨⟨hshift, hfits⟩, ⟨hless, -⟩ | ⟨-, more, count, hrest, rfl, rfl⟩⟩
          · exact absurd hless hlast
          · obtain ⟨hextent, hspan, hmore, hroom⟩ := ih.mp hrest
            have hpositive : 1 ≤ count := (unpackUintFrom_length hrest).1
            refine ⟨by rw [hextent]; rfl, by omega, ?_, room_below hdigit (by omega) hroom⟩
            rw [List.take_succ_cons, denoted_cons, hmore]
        · rintro ⟨hextent, hspan, hvalue, hfits⟩
          obtain ⟨count, hcount, rfl⟩ := Option.map_eq_some_iff.mp hextent
          rw [List.take_succ_cons, denoted_cons] at hvalue
          subst hvalue
          obtain ⟨hlow, hhigh⟩ := parts_fit hfits
          refine ⟨⟨by omega, hlow⟩, .inr ⟨hlast, _, count, ?_, rfl, rfl⟩⟩
          exact ih.mpr ⟨hcount, by omega, rfl, hhigh⟩

/-- What it takes that more bytes are asked for. -/
theorem unpackUintFrom_eq_needMore_iff (hshift : shift < 71) :
    unpackUintFrom shift buffer = .needMore ↔
      (∀ byte ∈ buffer, byte &&& 0x80 ≠ 0) ∧ shift + 7 * buffer.length < 71 ∧
        denoted buffer * 2 ^ shift < wordBound := by
  induction buffer generalizing shift with
  | nil => simp [unpackUintFrom, hshift, wordBound]
  | cons byte rest ih =>
      have hdigit : payload byte < 128 := Nat.mod_lt _ (by decide)
      rw [unpackUintFrom_cons_eq_needMore, fits_iff, denoted_cons, List.forall_mem_cons,
        List.length_cons, ne_eq, Machine.high_eq_zero_iff]
      constructor
      · rintro ⟨⟨hsmall, hfits⟩, hmore, hrest⟩
        obtain ⟨hbytes, hspan, hroom⟩ := (ih (by omega)).mp hrest
        refine ⟨⟨hmore, hbytes⟩, by omega, ?_⟩
        -- Only the tenth byte may reach over the end of a word, and no byte comes after it.
        cases rest with
        | nil => simpa using hfits
        | cons next others =>
            rw [List.length_cons] at hspan
            exact room_below hdigit (by omega) hroom
      · rintro ⟨⟨hmore, hbytes⟩, hspan, hfits⟩
        obtain ⟨hlow, hhigh⟩ := parts_fit hfits
        exact ⟨⟨by omega, hlow⟩, hmore, (ih (by omega)).mpr ⟨hbytes, by omega, hhigh⟩⟩

/-- An integer is read from a buffer if and only if it ends within ten bytes and its number is one
of a word. -/
theorem unpackUint_eq_value_iff :
    unpackUint buffer = .value value length ↔
      extent? buffer = some length ∧ length ≤ 10 ∧ denoted (buffer.take length) = value ∧
        value < wordBound := by
  have hspan : 0 + 7 * length < 71 ↔ length ≤ 10 := by omega
  rw [unpackUint, unpackUintFrom_eq_value_iff, hspan, pow_zero, mul_one]

/-- An integer is read from its own bytes alone. -/
theorem unpackUint_take (h : unpackUint buffer = .value value length) :
    unpackUint (buffer.take length) = .value value length := by
  obtain ⟨hextent, hlength, hvalue, hword⟩ := unpackUint_eq_value_iff.mp h
  refine unpackUint_eq_value_iff.mpr ⟨extent?_take hextent, hlength, ?_, hword⟩
  rw [List.take_take, Nat.min_self, hvalue]

/-- More bytes are asked for if and only if none is the last of the integer yet, they are ten at
most and their number is one of a word. -/
theorem unpackUint_eq_needMore_iff :
    unpackUint buffer = .needMore ↔
      (∀ byte ∈ buffer, byte &&& 0x80 ≠ 0) ∧ buffer.length ≤ 10 ∧ denoted buffer < wordBound := by
  have hspan : 0 + 7 * buffer.length < 71 ↔ buffer.length ≤ 10 := by omega
  rw [unpackUint, unpackUintFrom_eq_needMore_iff (by decide), hspan, pow_zero, mul_one]

/-- Reading an integer is exact and stable, and it is the same in the bits of one word. A value is
read in so many bytes if and only if these end with the first byte without the high bit, are ten at
most, and say this value, which fits into 64 bits. And a value or a refusal stays the same,
whatever comes after the buffer. -/
theorem unpackUint_exact (buffer : Bytes) :
    Machine.unpackUint buffer = .ok (unpackUint buffer) ∧
      (∀ value length, unpackUint buffer = .value value length ↔
        extent? buffer = some length ∧ length ≤ 10 ∧ denoted (buffer.take length) = value ∧
          value < 2 ^ 64) ∧
      ∀ tail, unpackUint buffer ≠ .needMore → unpackUint (buffer ++ tail) = unpackUint buffer :=
  ⟨Machine.unpackUint_eq buffer, fun _ _ => unpackUint_eq_value_iff,
    fun tail hverdict => unpackUint_append (Decoded.settled_iff.mpr hverdict) tail⟩

/-- The largest word takes ten bytes, the last of which has its highest bit. -/
def largestWord : Bytes :=
  List.replicate 9 0xff ++ [0x01]

theorem unpackUint_exact_largest :
    unpackUint (largestWord ++ [0x00]) = unpackUint largestWord ∧
      unpackUint largestWord = .value (2 ^ 64 - 1) 10 := by
  have hvalue : unpackUint largestWord = .value (2 ^ 64 - 1) 10 :=
    ((unpackUint_exact largestWord).2.1 _ _).mpr (by decide)
  exact ⟨(unpackUint_exact largestWord).2.2 _ (by simp [hvalue]), hvalue⟩

end TableReplica.Wire
