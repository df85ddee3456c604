import Mathlib
import TableReplica.Wire.Varint

/-!
# Arithmetic of a machine

A machine computes with numbers of a limited width and with indices into buffers. An operation is
`Checked`: where its result does not fit the width, or an index lies outside the buffer, it is a
`Fault`. Integers and byte strings are read and written here in the way of a machine, bit by bit in
one word. The three equations `unpackUint_eq`, `unpackString_eq` and `packUint_eq` say that it comes
to the same without a fault, whatever the bytes are.
-/

namespace TableReplica.Machine

open Wire

/-- What a machine cannot do. -/
inductive Fault where
  /-- A difference is below zero. -/
  | underflow
  /-- A sum does not fit the width of its operands. -/
  | overflow
  /-- A word is shifted by its width or more. -/
  | shift
  /-- A set bit is shifted out of a word that is to keep it. -/
  | lostBits
  /-- A number does not fit the narrower width that it is converted to. -/
  | narrowing
  /-- A byte lies outside the buffer. -/
  | index
  /-- A part of a buffer lies outside of it or ends before it starts. -/
  | slice
  /-- The program has come to a place that it must not come to. -/
  | unreachable
  /-- A loop goes on without making progress. -/
  | stuck
  deriving Repr, DecidableEq

/-- The result of an operation that may be a fault. -/
abbrev Checked (α : Type) := Except Fault α

/-- The number of bits of a word. -/
def wordWidth : Nat := 64

/-- The numbers that count the bits of a shift stay below this bound. -/
def shiftBound : Nat := UInt32.size

/-- The values of a byte stay below this bound. -/
def byteBound : Nat := UInt8.size

/-- A number below this bound is an index on every machine. -/
def sizeBound : Nat := UInt32.size

/-- The difference of two numbers. -/
def sub (first second : Nat) : Checked Nat :=
  if second ≤ first then .ok (first - second) else .error .underflow

/-- The sum of two numbers of a width. -/
def add (bound first second : Nat) : Checked Nat :=
  if first + second < bound then .ok (first + second) else .error .overflow

/-- The sum of two words, if it is one. -/
def add? (first second : Nat) : Option Nat :=
  if first + second < wordBound then some (first + second) else none

/-- The product of two words, if it is one. -/
def mul? (first second : Nat) : Option Nat :=
  if first * second < wordBound then some (first * second) else none

/-- A number in a narrower width. -/
def narrow (bound value : Nat) : Checked Nat :=
  if value < bound then .ok value else .error .narrowing

/-- A word shifted up. Bits beyond its width are lost. -/
def shiftUp (value shift : Nat) : Checked Nat :=
  if shift < wordWidth then .ok (value <<< shift % wordBound) else .error .shift

/-- A word shifted down. -/
def shiftDown (value shift : Nat) : Checked Nat :=
  if shift < wordWidth then .ok (value >>> shift) else .error .shift

/-- A word shifted up that is to keep its bits. -/
def shiftWhole (value shift : Nat) : Checked Nat :=
  if value <<< shift < wordBound then shiftUp value shift else .error .lostBits

/-- The byte at an index of a buffer. -/
def byteAt (buffer : Bytes) (index : Nat) : Checked UInt8 :=
  match buffer[index]? with
  | some byte => .ok byte
  | none => .error .index

/-- The part of a buffer from one index up to another. -/
def slice (buffer : Bytes) (start stop : Nat) : Checked Bytes :=
  if start ≤ stop ∧ stop ≤ buffer.length then .ok ((buffer.drop start).take (stop - start))
  else .error .slice

theorem sub_of_le {first second : Nat} (h : second ≤ first) :
    sub first second = .ok (first - second) :=
  if_pos h

theorem add_of_lt {bound first second : Nat} (h : first + second < bound) :
    add bound first second = .ok (first + second) :=
  if_pos h

theorem narrow_of_lt {bound value : Nat} (h : value < bound) : narrow bound value = .ok value :=
  if_pos h

theorem shiftWhole_of_lt {value shift : Nat} (hshift : shift < wordWidth)
    (hvalue : value <<< shift < wordBound) : shiftWhole value shift = .ok (value <<< shift) := by
  rw [shiftWhole, if_pos hvalue, shiftUp, if_pos hshift, Nat.mod_eq_of_lt hvalue]

theorem slice_of_le {buffer : Bytes} {start stop : Nat} (hstart : start ≤ stop)
    (hstop : stop ≤ buffer.length) :
    slice buffer start stop = .ok ((buffer.drop start).take (stop - start)) :=
  if_pos ⟨hstart, hstop⟩

/-- Whether the bits of a word come back when it is shifted up and down again. From the width of a
word on nothing is shifted. -/
def survives (value shift : Nat) : Checked Bool :=
  if wordWidth ≤ shift then return false
  else do
    let up ← shiftUp value shift
    let down ← shiftDown up shift
    return down = value

/-- The bits of a word come back if none of them leaves the word. -/
theorem survives_eq (value shift : Nat) :
    survives value shift =
      .ok (decide (shift < wordWidth) && decide (value <<< shift < wordBound)) := by
  unfold survives
  by_cases hshift : shift < wordWidth
  · have hback : (value <<< shift % wordBound) >>> shift = value ↔ value <<< shift < wordBound := by
      rw [Nat.shiftRight_eq_div_pow, Nat.shiftLeft_eq]
      constructor
      · intro hsame
        by_contra hlarge
        have hless : value * 2 ^ shift % wordBound < value * 2 ^ shift :=
          lt_of_lt_of_le (Nat.mod_lt _ (by decide)) (not_lt.mp hlarge)
        exact absurd hsame (Nat.div_lt_of_lt_mul (Nat.mul_comm _ _ ▸ hless)).ne
      · intro hfits
        rw [Nat.mod_eq_of_lt hfits, Nat.mul_div_cancel _ (by positivity)]
    rw [if_neg (not_le.mpr hshift)]
    simp [shiftUp, shiftDown, hshift, hback, bind, Except.bind, pure, Except.pure]
  · rw [if_pos (not_lt.mp hshift)]
    simp [hshift, pure, Except.pure]

/-- Read an integer of which `index` bytes have been read, which gave `value`. The bits of the next
byte count from bit `shift`. -/
def unpackUintFrom (index shift value : Nat) : Bytes → Checked (Decoded Nat)
  | [] => return .needMore
  | byte :: rest => do
    let part := (byte &&& 0x7f).toNat
    if ← survives part shift then
      let value := value ||| (← shiftWhole part shift)
      let length ← add wordBound index 1
      if byte &&& 0x80 = 0 then return .value value length
      else unpackUintFrom length (← add shiftBound shift 7) value rest
    else return .malformed

/-- Read an integer from the front of a buffer. -/
def unpackUint (buffer : Bytes) : Checked (Decoded Nat) :=
  unpackUintFrom 0 0 0 buffer

/-- Read a byte string from the front of a buffer. -/
def unpackString (buffer : Bytes) : Checked (Decoded Bytes) := do
  match ← unpackUint buffer with
  | .value value length =>
    if wordBound ≤ value then return .malformed
    else
      match add? length value with
      | some stop =>
        if stop ≤ buffer.length then return .value (← slice buffer length stop) stop
        else return .needMore
      | none => return .malformed
  | .needMore => return .needMore
  | .malformed => return .malformed

/-- Write an integer. -/
def packUint (value : Nat) : Checked Bytes :=
  if 0x7f < value then do
    let low ← narrow byteBound (value &&& 0x7f)
    let rest ← packUint (value >>> 7)
    return (low.toUInt8 ||| 0x80) :: rest
  else do
    let last ← narrow byteBound value
    return [last.toUInt8]
termination_by value
decreasing_by
  rw [Nat.shiftRight_eq_div_pow]
  omega

/-- The low bits of a byte are what it carries. -/
theorem toNat_low (byte : UInt8) : (byte &&& 0x7f).toNat = payload byte :=
  (UInt8.toNat_and _ _).trans (Nat.and_two_pow_sub_one_eq_mod byte.toNat 7)

/-- The last byte of an integer is one without the high bit. -/
theorem high_eq_zero_iff (byte : UInt8) : byte &&& 0x80 = 0 ↔ byte < 128 := by
  have hbit : byte.toNat &&& 2 ^ 7 = (byte.toNat.testBit 7).toNat * 2 ^ 7 := Nat.and_two_pow _ _
  have hsize : byte.toNat < 256 := byte.toNat_lt
  rw [← UInt8.toNat_inj, UInt8.toNat_and, UInt8.lt_iff_toNat_lt]
  show byte.toNat &&& 2 ^ 7 = 0 ↔ byte.toNat < 128
  rw [hbit, Nat.testBit_eq_decide_div_mod_eq]
  simp only [Nat.mul_eq_zero, Bool.toNat_eq_zero, decide_eq_false_iff_not]
  omega

/-- The verdict on an integer, by the verdict on the bytes after the first `index`, which gave
`value`. -/
def continued (index shift value : Nat) : Decoded Nat → Decoded Nat
  | .value more length => .value (value + more <<< shift) (index + length)
  | .needMore => .needMore
  | .malformed => .malformed

/-- Seven bits are read for each byte, so the bits of the next one count from behind them. Ten bytes
have more bits than a word, so no index and no shift gets large. -/
theorem unpackUintFrom_eq {index value : Nat} (hindex : index ≤ 10)
    (hvalue : value < 2 ^ (7 * index)) (buffer : Bytes) :
    unpackUintFrom index (7 * index) value buffer =
      .ok (continued index (7 * index) value (Wire.unpackUintFrom (7 * index) buffer)) := by
  induction buffer generalizing index value with
  | nil => rfl
  | cons byte rest ih =>
      have hfits : survives (payload byte) (7 * index) = .ok (fits (7 * index) byte) :=
        survives_eq _ _
      unfold unpackUintFrom Wire.unpackUintFrom
      simp only [toNat_low, hfits, bind, Except.bind]
      by_cases hfit : fits (7 * index) byte = true
      · have hroom : 7 * index < wordWidth ∧ payload byte <<< (7 * index) < wordBound := by
          simpa [fits, wordWidth] using hfit
        have hshift : 7 * index < 64 := hroom.1
        have hlength : index + 1 < wordBound :=
          lt_of_le_of_lt (by omega) (show 10 < wordBound by decide)
        have hnext : 7 * index + 7 < shiftBound :=
          lt_of_le_of_lt (by omega) (show 70 < shiftBound by decide)
        have hor : value ||| payload byte <<< (7 * index) =
            value + payload byte <<< (7 * index) := by
          rw [Nat.or_comm, ← Nat.shiftLeft_add_eq_or_of_lt hvalue, Nat.add_comm]
        simp only [hfit, if_true, shiftWhole_of_lt hroom.1 hroom.2, add_of_lt hlength,
          add_of_lt hnext, high_eq_zero_iff, hor]
        split
        · rfl
        · have hpart : payload byte < 128 := Nat.mod_lt _ (by decide)
          have hfilled : value + payload byte <<< (7 * index) < 2 ^ (7 * (index + 1)) := by
            calc value + payload byte <<< (7 * index)
                _ < 2 ^ (7 * index) + payload byte <<< (7 * index) := Nat.add_lt_add_right hvalue _
                _ = (payload byte + 1) * 2 ^ (7 * index) := by rw [Nat.shiftLeft_eq]; ring
                _ ≤ 2 ^ 7 * 2 ^ (7 * index) := Nat.mul_le_mul_right _ hpart
                _ = 2 ^ (7 * (index + 1)) := by rw [← pow_add, Nat.mul_succ, Nat.add_comm]
          rw [← Nat.mul_succ, ih (by omega) hfilled]
          cases Wire.unpackUintFrom (7 * (index + 1)) rest with
          | value more length =>
              simp only [continued, Nat.shiftLeft_eq, Nat.mul_succ, pow_add]
              congr 2 <;> ring
          | needMore => rfl
          | malformed => rfl
      · simp only [hfit, Bool.false_eq_true, if_false]
        rfl

/-- Reading an integer is no fault, whatever the bytes are. -/
theorem unpackUint_eq (buffer : Bytes) : unpackUint buffer = .ok (Wire.unpackUint buffer) := by
  have hstart : unpackUint buffer = .ok (continued 0 0 0 (Wire.unpackUint buffer)) :=
    unpackUintFrom_eq (Nat.zero_le 10) Nat.one_pos buffer
  rw [hstart]
  cases Wire.unpackUint buffer <;> simp [continued]

-- The tenth byte of an integer has room for one bit, the highest of a word.
example : unpackUint (List.replicate 9 0xff ++ [0x01]) = .ok (.value (wordBound - 1) 10) := by
  decide

example : unpackUint (List.replicate 9 0xff ++ [0x02]) = .ok .malformed := by
  decide

/-- Reading a byte string is no fault, whatever the bytes are. -/
theorem unpackString_eq (buffer : Bytes) :
    unpackString buffer = .ok (Wire.unpackString buffer) := by
  unfold unpackString Wire.unpackString
  rw [unpackUint_eq]
  simp only [bind, Except.bind]
  cases Wire.unpackUint buffer with
  | needMore => rfl
  | malformed => rfl
  | value size length =>
      simp only [add?]
      by_cases hsize : wordBound ≤ size
      · rw [if_pos hsize, if_pos (Nat.le_add_left_of_le hsize)]
        rfl
      · rw [if_neg hsize]
        by_cases hstop : length + size < wordBound
        · rw [if_pos hstop, if_neg (not_le.mpr hstop)]
          simp only
          split
          · next hwhole =>
              rw [slice_of_le (Nat.le_add_right _ _) hwhole, Nat.add_sub_cancel_left]
              rfl
          · rfl
        · rw [if_neg hstop, if_pos (not_lt.mp hstop)]
          rfl

/-- A byte with the high bit set has that much more. -/
theorem toUInt8_or_high {low : Nat} (h : low < 128) :
    low.toUInt8 ||| 0x80 = (low + 128).toUInt8 := by
  have hor : low ||| 2 ^ 7 * 1 = 2 ^ 7 * 1 + low := by
    rw [Nat.or_comm, Nat.two_pow_add_eq_or_of_lt h]
  rw [← UInt8.toNat_inj, UInt8.toNat_or, UInt8.toNat_ofNat_of_lt' (h.trans (by decide)),
    UInt8.toNat_ofNat_of_lt' (show low + 128 < UInt8.size by simp only [UInt8.size]; omega)]
  exact hor.trans (Nat.add_comm _ _)

/-- Writing an integer is no fault. -/
theorem packUint_eq (value : Nat) : packUint value = .ok (Wire.packUint value) := by
  fun_induction Wire.packUint value with
  | case1 value hlast =>
      rw [packUint, if_neg (by omega), narrow_of_lt (hlast.trans (by decide))]
      rfl
  | case2 value hmore ih =>
      have hlow : value &&& 0x7f = value % 128 := Nat.and_two_pow_sub_one_eq_mod value 7
      have hrest : value >>> 7 = value / 128 := Nat.shiftRight_eq_div_pow value 7
      have hbyte : value % 128 < 128 := Nat.mod_lt _ (by decide)
      rw [packUint, if_pos (by omega), hlow, hrest, ih, narrow_of_lt (hbyte.trans (by decide))]
      simp only [bind, Except.bind, toUInt8_or_high hbyte]
      rfl

end TableReplica.Machine
