import Mathlib.Data.List.Basic

/-!
# Tapes

A list with a cursor.  A write replaces what stands behind the cursor, goes on behind the end of the
list, and leaves the cursor where it has stopped writing.
-/

/-- A list with a cursor in it or at its end. -/
structure Tape (α : Type*) where
  contents : List α
  cursor : Nat
  le : cursor ≤ contents.length

namespace Tape

variable {α : Type*}

def empty : Tape α := ⟨[], 0, Nat.le_refl 0⟩

def length (t : Tape α) : Nat := t.contents.length

def write (t : Tape α) (data : List α) : Tape α where
  contents := t.contents.take t.cursor ++ data ++ t.contents.drop (t.cursor + data.length)
  cursor := t.cursor + data.length
  le := by
    have hle := t.le
    simp only [List.length_append, List.length_take, List.length_drop]
    omega

/-- The cursor is only set to a place on the tape. -/
def seek (t : Tape α) (dest : Nat) : Option (Tape α) :=
  if h : dest ≤ t.contents.length then some { t with cursor := dest, le := h } else none

theorem contents_write (t : Tape α) (data : List α) : (t.write data).contents =
    t.contents.take t.cursor ++ data ++ t.contents.drop (t.cursor + data.length) := rfl

@[simp] theorem cursor_write (t : Tape α) (data : List α) :
    (t.write data).cursor = t.cursor + data.length := rfl

@[simp] theorem length_write (t : Tape α) (data : List α) :
    (t.write data).length = max t.length (t.cursor + data.length) := by
  have hle := t.le
  simp only [write, length, List.length_append, List.length_take, List.length_drop]
  omega

/-- What has been written can be read where the cursor stood. -/
theorem write_inside (t : Tape α) (data : List α) {i : Nat} (hi : i < data.length) :
    (t.write data).contents[t.cursor + i]? = data[i]? := by
  have hle := t.le
  have hfront : (t.contents.take t.cursor).length = t.cursor := List.length_take_of_le hle
  rw [contents_write, List.append_assoc, List.getElem?_append_right (by omega), hfront,
    Nat.add_sub_cancel_left, List.getElem?_append_left hi]

/-- Everything else on the tape is left alone. -/
theorem write_outside (t : Tape α) (data : List α) {i : Nat}
    (hi : i < t.cursor ∨ t.cursor + data.length ≤ i) :
    (t.write data).contents[i]? = t.contents[i]? := by
  have hle := t.le
  have hfront : (t.contents.take t.cursor).length = t.cursor := List.length_take_of_le hle
  rcases hi with hi | hi
  -- before the cursor
  · rw [contents_write, List.append_assoc, List.getElem?_append_left (by omega), List.getElem?_take_of_lt hi]
  -- behind the data, where the old list goes on
  · rw [contents_write, List.getElem?_append_right (by rw [List.length_append]; omega), List.getElem?_drop,
      List.length_append, hfront]
    congr 1
    omega

theorem seek_eq_some {t t' : Tape α} {dest : Nat} (h : t.seek dest = some t') :
    t'.contents = t.contents ∧ t'.cursor = dest := by
  unfold seek at h
  split at h
  · cases h
    exact ⟨rfl, rfl⟩
  · cases h

end Tape
