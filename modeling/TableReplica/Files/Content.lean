import TableReplica.Bytes

/-!
# What a file holds

The content of a file is kept packed. `bytes` is the view of it: contents with the same bytes are
the same (`Content.ext`), and each operation is described by the bytes it gives. Writing at an
offset replaces what was there, leaves everything else, and fills a gap between the old end and the
offset with zeros (`bytes_overwrite`). Writing no bytes changes nothing, so it fills no gap either.
-/

namespace TableReplica.Files

/-- Offsets in a file stay below this bound. -/
def offsetBound : Nat := UInt64.size / 2

/-- What a file holds. -/
structure Content where
  packed : ByteArray

namespace Content

/-- The content of an empty file. -/
def empty : Content := ⟨.empty⟩

/-- The content with the given bytes. -/
def ofBytes (bytes : Bytes) : Content := ⟨bytes.toByteArray⟩

/-- The bytes of a content, in order. -/
def bytes (content : Content) : Bytes := content.packed.data.toList

/-- The number of bytes of a content. -/
def size (content : Content) : Nat := content.packed.size

instance : Repr Content where
  reprPrec content := reprPrec content.bytes

/-- At most `count` bytes from a position on. -/
def window (content : Content) (position count : Nat) : Bytes :=
  (content.packed.extract position (position + count)).data.toList

/-- Packed bytes with zeros after them. -/
def pushZeros (packed : ByteArray) : Nat → ByteArray
  | 0 => packed
  | count + 1 => pushZeros (packed.push 0) count

/-- The content after `data` was written at `offset`. -/
def overwrite (content : Content) (offset : Nat) (data : Bytes) : Content :=
  if data = [] then content
  else
    let piece := data.toByteArray
    let reaching := pushZeros content.packed (offset - content.size)
    ⟨piece.copySlice 0 reaching offset piece.size false⟩

/-- Contents with the same bytes are the same. -/
theorem ext {first second : Content} (h : first.bytes = second.bytes) : first = second := by
  cases first
  cases second
  congr 1
  exact ByteArray.ext (Array.toList_inj.mp h)

instance : DecidableEq Content := fun first second =>
  decidable_of_iff (first.bytes = second.bytes) ⟨ext, congrArg bytes⟩

/-- An empty file holds no bytes. -/
@[simp] theorem bytes_empty : empty.bytes = [] :=
  rfl

/-- A content made of bytes holds them. -/
@[simp] theorem bytes_ofBytes (bytes : Bytes) : (ofBytes bytes).bytes = bytes := by
  simp [ofBytes, Content.bytes]

/-- A file holds as many bytes as its size tells. -/
@[simp] theorem length_bytes (content : Content) : content.bytes.length = content.size :=
  rfl

/-- A part of a file holds the bytes from its position on. -/
theorem bytes_window (content : Content) (position count : Nat) :
    content.window position count = (content.bytes.drop position).take count := by
  simp [window, bytes, ByteArray.data_extract, List.extract_eq_take_drop]

/-- Zeros are put at the end. -/
theorem toList_pushZeros (packed : ByteArray) (count : Nat) :
    (pushZeros packed count).data.toList = packed.data.toList ++ List.replicate count 0 := by
  induction count generalizing packed with
  | zero => simp [pushZeros]
  | succ count ih => simp [pushZeros, ih, ByteArray.data_push, List.replicate_succ]

/-- Writing no bytes changes nothing. -/
@[simp] theorem overwrite_nil (content : Content) (offset : Nat) :
    content.overwrite offset [] = content := by
  simp [overwrite]

/-- What is in front of the offset and behind the data stays, and zeros fill a gap. -/
theorem bytes_overwrite (content : Content) (offset : Nat) {data : Bytes} (h : data ≠ []) :
    (content.overwrite offset data).bytes =
      content.bytes.take offset ++ List.replicate (offset - content.size) 0 ++ data ++
        content.bytes.drop (offset + data.length) := by
  have reach : (pushZeros content.packed (offset - content.size)).data.toList =
      content.bytes ++ List.replicate (offset - content.size) 0 :=
    toList_pushZeros _ _
  have front : (content.bytes ++ List.replicate (offset - content.size) 0).take offset =
      content.bytes.take offset ++ List.replicate (offset - content.size) 0 := by
    simp [List.take_append]
  have back : (content.bytes ++ List.replicate (offset - content.size) 0).drop
      (offset + data.length) = content.bytes.drop (offset + data.length) := by
    have beyond : offset - content.size ≤ offset + data.length - content.size := by omega
    simp [List.drop_append, beyond]
  rw [overwrite, if_neg h]
  show ((data.toByteArray.copySlice 0 _ offset data.toByteArray.size false).data).toList = _
  have all : data.toByteArray.data.size = data.length := by simp
  have last : (pushZeros content.packed (offset - content.size)).data.size =
      (content.bytes ++ List.replicate (offset - content.size) 0).length := by
    rw [← reach, Array.length_toList]
  simp only [ByteArray.copySlice, Array.toList_append, Array.toList_extract,
    List.extract_eq_take_drop, reach, ByteArray.size, all, Nat.zero_add, Nat.sub_zero, Nat.min_self,
    List.drop_zero, front, back, last]
  have whole : data.toByteArray.data.toList = data := by simp
  rw [whole, List.take_length, ← List.length_drop, back, List.take_length]

/-- A write never shortens a file, and reaches exactly to the end of what was written. -/
theorem size_overwrite (content : Content) (offset : Nat) {data : Bytes} (h : data ≠ []) :
    (content.overwrite offset data).size = max content.size (offset + data.length) := by
  rw [← length_bytes, bytes_overwrite content offset h]
  simp only [List.length_append, List.length_take, List.length_replicate, List.length_drop,
    length_bytes]
  omega

/-- Appending to a file is writing at its end. -/
theorem bytes_overwrite_size (content : Content) (data : Bytes) :
    (content.overwrite content.size data).bytes = content.bytes ++ data := by
  by_cases h : data = []
  · simp [h]
  · rw [bytes_overwrite _ _ h, List.take_of_length_le (by simp),
      List.drop_of_length_le (by simp)]
    simp

end Content

end TableReplica.Files
