import ScriptWorkbench.Text.Utf8

/-!
# Slices of a text

A slice names the bytes of a text where it begins and where it ends.  There is none unless both are
places between two characters, or ends of the text: `sliceFrom?_append`, `sliceTo?_append` and
`slice?_append` say what the slices at such places are.

A slice of bytes only has to lie within the bytes.
-/

set_option autoImplicit false

namespace ScriptWorkbench

namespace Text

/-- The text from byte `n` on. -/
def sliceFrom? (t : Text) (n : Nat) : Option Text :=
  if t.floorBoundary n = n then some (t.dropBytes n) else none

/-- The text up to byte `n`. -/
def sliceTo? (t : Text) (n : Nat) : Option Text :=
  if t.floorBoundary n = n then some (t.takeBytes n) else none

/-- The text from byte `i` up to byte `j`. -/
def slice? (t : Text) (i j : Nat) : Option Text :=
  (t.sliceTo? j).bind fun u => u.sliceFrom? i

/-- Between two parts of a text there is a boundary. -/
theorem floorBoundary_append (s t : Text) : (s ++ t).floorBoundary s.byteSize = s.byteSize := by
  rw [floorBoundary, takeBytes_append_byteSize]

/-- From the boundary between two parts on stands the second. -/
@[simp]
theorem sliceFrom?_append (s t : Text) : (s ++ t).sliceFrom? s.byteSize = some t := by
  rw [sliceFrom?, if_pos (floorBoundary_append s t), dropBytes, takeBytes_append_byteSize,
    List.drop_left]

/-- Up to the boundary between two parts stands the first. -/
@[simp]
theorem sliceTo?_append (s t : Text) : (s ++ t).sliceTo? s.byteSize = some s := by
  rw [sliceTo?, if_pos (floorBoundary_append s t), takeBytes_append_byteSize]

/-- Between its two boundaries stands the middle part of a text. -/
theorem slice?_append (s u t : Text) :
    (s ++ (u ++ t)).slice? s.byteSize (s.byteSize + u.byteSize) = some u := by
  rw [← List.append_assoc, ← byteSize_append, slice?, sliceTo?_append, Option.bind_some,
    sliceFrom?_append]

end Text

namespace Bytes

/-- The bytes from index `i` up to index `j`. -/
def slice? (bytes : Bytes) (i j : Nat) : Option Bytes :=
  if i ≤ j ∧ j ≤ bytes.length then some ((bytes.drop i).take (j - i)) else none

/-- A slice inside the bytes exists, and it is what stands between its ends. -/
theorem slice?_of_le {bytes : Bytes} {i j : Nat} (hi : i ≤ j) (hj : j ≤ bytes.length) :
    bytes.slice? i j = some ((bytes.drop i).take (j - i)) :=
  if_pos ⟨hi, hj⟩

/-- A slice that goes to the end exists only if it begins inside. -/
theorem slice?_length {bytes rest : Bytes} {i : Nat} (h : bytes.slice? i bytes.length = some rest) :
    i ≤ bytes.length ∧ rest = bytes.drop i := by
  unfold slice? at h
  split at h
  · rename_i hi
    rw [Option.some.injEq, List.take_of_length_le (Nat.le_of_eq List.length_drop)] at h
    exact ⟨hi.1, h.symm⟩
  · cases h

end Bytes

end ScriptWorkbench
