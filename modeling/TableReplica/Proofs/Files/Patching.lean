import Mathlib
import TableReplica.Files.Content

/-!
# Patching a file

A content is told by its size and its bytes (`Content.ext_byteAt`), where the byte beyond the end is
zero. After a list of writes each byte is the one that the last write covering it put there, or the
old one if none covers it (`byteAt_patched`), and the size is as far as the writes reach, or the old
one (`size_patched`). Hence writing again what a list starts with, before writing all of the list,
makes no difference: `patched_again`.
-/

namespace TableReplica.Files

/-- Bytes to write at an offset. -/
structure Patch where
  offset : Nat
  data : Bytes
  deriving Repr, DecidableEq

namespace Patch

/-- The byte that a write puts at a position, if it covers it. -/
def at? (patch : Patch) (position : Nat) : Option UInt8 :=
  if patch.offset ≤ position then patch.data[position - patch.offset]? else none

/-- How far a write reaches. A write of no bytes reaches nowhere. -/
def reach (patch : Patch) : Nat :=
  if patch.data = [] then 0 else patch.offset + patch.data.length

/-- A write puts nothing in front of its offset and nothing behind its data. -/
theorem at?_eq_none {patch : Patch} {position : Nat}
    (h : position < patch.offset ∨ patch.offset + patch.data.length ≤ position) :
    patch.at? position = none := by
  unfold at?
  split
  · exact List.getElem?_eq_none (by omega)
  · rfl

/-- The byte that the last write covering a position puts there. -/
def last? : List Patch → Nat → Option UInt8
  | [], _ => none
  | patch :: rest, position => (last? rest position).or (patch.at? position)

/-- How far the writes of a list reach. -/
def span : List Patch → Nat
  | [] => 0
  | patch :: rest => max patch.reach (span rest)

theorem last?_append (first second : List Patch) (position : Nat) :
    last? (first ++ second) position = (last? second position).or (last? first position) := by
  induction first with
  | nil => simp [last?]
  | cons patch rest ih => rw [List.cons_append, last?, ih, Option.or_assoc, last?]

theorem span_append (first second : List Patch) :
    span (first ++ second) = max (span first) (span second) := by
  induction first with
  | nil => simp [span]
  | cons patch rest ih => rw [List.cons_append, span, ih, span, Nat.max_assoc]

theorem span_eq (patches : List Patch) : span patches = (patches.map reach).foldr max 0 := by
  induction patches with
  | nil => rfl
  | cons patch rest ih => rw [span, ih, List.map_cons, List.foldr_cons]

end Patch

namespace Content

/-- The byte at a position, and zero beyond the end. -/
def byteAt (content : Content) (position : Nat) : UInt8 :=
  content.bytes[position]?.getD 0

/-- The content after writes in order. -/
def patched (content : Content) (patches : List Patch) : Content :=
  patches.foldl (fun content patch => content.overwrite patch.offset patch.data) content

/-- Contents of one size with the same byte everywhere are the same. -/
theorem ext_byteAt {first second : Content} (hsize : first.size = second.size)
    (hbytes : ∀ position, first.byteAt position = second.byteAt position) : first = second := by
  apply ext
  apply List.ext_getElem
  · rw [length_bytes, length_bytes, hsize]
  · intro position hfirst hsecond
    have hbyte := hbytes position
    simp only [byteAt, List.getElem?_eq_getElem hfirst, List.getElem?_eq_getElem hsecond] at hbyte
    exact hbyte

/-- A write puts its bytes where it covers and changes no other byte. -/
theorem byteAt_overwrite (content : Content) (patch : Patch) (position : Nat) :
    (content.overwrite patch.offset patch.data).byteAt position =
      (patch.at? position).getD (content.byteAt position) := by
  obtain ⟨offset, data⟩ := patch
  by_cases hempty : data = []
  · subst hempty
    simp [Patch.at?]
  · simp only [byteAt, bytes_overwrite content offset hempty, Patch.at?]
    have hfront : (content.bytes.take offset ++ List.replicate (offset - content.size) 0).length =
        offset := by
      simp only [List.length_append, List.length_take, List.length_replicate, length_bytes]
      omega
    rcases Nat.lt_or_ge position offset with hbefore | hafter
    · -- In front of the data are the old bytes and the zeros that fill the gap.
      rw [if_neg (by omega), List.append_assoc, List.getElem?_append_left (by omega)]
      rcases Nat.lt_or_ge position content.size with hold | hgap
      · rw [List.getElem?_append_left (by simp; omega), List.getElem?_take_of_lt hbefore]
        rfl
      · rw [List.getElem?_append_right (by simp; omega),
          List.getElem?_eq_none (by simp; omega : content.bytes.length ≤ position),
          List.getElem?_replicate_of_lt (by simp; omega)]
        rfl
    · rw [if_pos hafter, List.append_assoc, List.getElem?_append_right (by omega), hfront]
      rcases Nat.lt_or_ge (position - offset) data.length with hcovered | hbehind
      · rw [List.getElem?_append_left hcovered, List.getElem?_eq_getElem hcovered]
        rfl
      · rw [List.getElem?_append_right hbehind, List.getElem?_eq_none hbehind, List.getElem?_drop,
          show offset + data.length + (position - offset - data.length) = position by omega]
        rfl

theorem size_overwrite_eq (content : Content) (patch : Patch) :
    (content.overwrite patch.offset patch.data).size = max content.size patch.reach := by
  unfold Patch.reach
  split
  · next hempty => simp [hempty]
  · next hsome => exact size_overwrite content patch.offset hsome

/-- After writes each byte is what the last write covering it put there. -/
theorem byteAt_patched (content : Content) (patches : List Patch) (position : Nat) :
    (content.patched patches).byteAt position =
      (Patch.last? patches position).getD (content.byteAt position) := by
  induction patches generalizing content with
  | nil => rfl
  | cons patch rest ih =>
      show ((content.overwrite patch.offset patch.data).patched rest).byteAt position = _
      rw [ih, byteAt_overwrite, Patch.last?]
      cases Patch.last? rest position <;> rfl

/-- After writes a file is as long as they reach, unless it was longer before. -/
theorem size_patched (content : Content) (patches : List Patch) :
    (content.patched patches).size = max content.size (Patch.span patches) := by
  induction patches generalizing content with
  | nil => simp [patched, Patch.span]
  | cons patch rest ih =>
      show ((content.overwrite patch.offset patch.data).patched rest).size = _
      rw [ih, size_overwrite_eq, Patch.span, Nat.max_assoc]

theorem patched_append (content : Content) (first second : List Patch) :
    content.patched (first ++ second) = (content.patched first).patched second :=
  List.foldl_append

/-- Writing what a list starts with, and then all of the list, is writing the list. -/
theorem patched_again (content : Content) (first second : List Patch) :
    (content.patched first).patched (first ++ second) = content.patched (first ++ second) := by
  apply ext_byteAt
  · rw [size_patched, size_patched, size_patched, Patch.span_append]
    omega
  · intro position
    rw [byteAt_patched, byteAt_patched, byteAt_patched, Patch.last?_append]
    -- A byte that the list does not cover is not covered by its beginning either.
    cases Patch.last? second position with
    | some byte => rfl
    | none => cases Patch.last? first position <;> rfl

end Content

end TableReplica.Files
