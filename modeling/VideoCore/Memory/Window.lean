import VideoCore.Bytes

namespace VideoCore

/-!
# Windows

A window is a run of bytes inside stored contents.  However long it is, making
it and narrowing it copies nothing.  What a window shows is a byte string,
`Window.toBytes`: a part of the contents (`toBytes_eq`).  Narrowing a window
takes bytes off that string (`toBytes_take`, `toBytes_drop`), and a byte of the
window is a byte of it (`byte?_eq_getElem?`).
-/

/-- A run of bytes inside some contents. -/
structure Window where
  contents : Array UInt8
  /-- The position of the first byte. -/
  start : Nat
  /-- The position after the last byte. -/
  stop : Nat
  start_le_stop : start ≤ stop
  stop_le_size : stop ≤ contents.size

namespace Window

/-- The window of all contents. -/
def ofArray (contents : Array UInt8) : Window :=
  ⟨contents, 0, contents.size, Nat.zero_le _, Nat.le_refl _⟩

/-- The window of a whole byte string. -/
def ofBytes (bytes : Bytes) : Window :=
  ofArray bytes.toArray

/-- The number of bytes. -/
def size (window : Window) : Nat :=
  window.stop - window.start

/-- The bytes. -/
def toBytes (window : Window) : Bytes :=
  (window.contents.extract window.start window.stop).toList

/-- The byte at an index. -/
def byte?
    (window : Window)
    (index : Nat) : Option UInt8 :=
  if index < window.size then window.contents[window.start + index]? else none

/--
The window of the first `count` bytes, or of all bytes if there are fewer.
-/
def take
    (window : Window)
    (count : Nat) : Window where
  contents := window.contents
  start := window.start
  stop := min (window.start + count) window.stop
  start_le_stop := Nat.le_min.mpr ⟨Nat.le_add_right .., window.start_le_stop⟩
  stop_le_size := Nat.le_trans (Nat.min_le_right ..) window.stop_le_size

/--
The window after the first `count` bytes, which is empty if there are fewer.
-/
def drop
    (window : Window)
    (count : Nat) : Window where
  contents := window.contents
  start := min (window.start + count) window.stop
  stop := window.stop
  start_le_stop := Nat.min_le_right ..
  stop_le_size := window.stop_le_size

/-- The window from one index up to another one. -/
def slice
    (window : Window)
    (low high : Nat) : Window :=
  (window.take high).drop low

/--
The windows of `size` bytes that a window consists of; the last may be shorter.
-/
def chunks
    (size : Nat)
    (window : Window) : List Window :=
  if size = 0 ∨ window.size = 0 then
    []
  else
    window.take size :: chunks size (window.drop size)
termination_by window.size
decreasing_by
  simp only [drop, Window.size] at *
  omega

/--
The byte at an index of the window; none of its bytes if the index is not below
its size.
-/
def byteAt
    (window : Window)
    (index : Nat) : UInt8 :=
  window.contents.getD (window.start + index) 0

/-- Whether two windows agree in the bytes before an index. -/
def agreeUpTo (first second : Window) : Nat → Bool
  | 0 => true
  | index + 1 =>
      first.byteAt index == second.byteAt index && agreeUpTo first second index

/-- Whether two windows show the same bytes. -/
def shows (first second : Window) : Bool :=
  first.size == second.size && agreeUpTo first second first.size

/-- The bytes are a part of the contents. -/
theorem toBytes_eq
    (window : Window) :
    window.toBytes =
      (window.contents.toList.drop window.start).take window.size := by
  rw [toBytes, Array.toList_extract, List.extract_eq_take_drop, size]

/-- A window has as many bytes as its size says. -/
@[simp] theorem length_toBytes
    (window : Window) :
    window.toBytes.length = window.size := by
  have inside := window.stop_le_size
  have ordered := window.start_le_stop
  simp only [toBytes_eq, List.length_take, List.length_drop,
    Array.length_toList, size]
  omega

/-- The window of a byte string shows that string. -/
@[simp] theorem toBytes_ofBytes
    (bytes : Bytes) :
    (ofBytes bytes).toBytes = bytes := by
  simp [toBytes_eq, ofBytes, ofArray, size]

/-- Taking bytes of a window takes them of its byte string. -/
@[simp] theorem toBytes_take
    (window : Window)
    (count : Nat) :
    (window.take count).toBytes = window.toBytes.take count := by
  have ordered := window.start_le_stop
  simp only [toBytes_eq, List.take_take, take, size]
  congr 1
  omega

/-- Dropping bytes of a window drops them of its byte string. -/
@[simp] theorem toBytes_drop
    (window : Window)
    (count : Nat) :
    (window.drop count).toBytes = window.toBytes.drop count := by
  have ordered := window.start_le_stop
  by_cases inside : window.start + count ≤ window.stop
  · simp only [toBytes_eq, drop, size, Nat.min_eq_left inside, List.drop_take,
      List.drop_drop]
    congr 1
    omega
  · have outside : window.stop ≤ window.start + count := by omega
    rw [List.drop_eq_nil_of_le (by rw [length_toBytes, size]; omega),
      toBytes_eq]
    simp [drop, size, Nat.min_eq_right outside]

/-- A byte of a window is a byte of its byte string. -/
theorem byte?_eq_getElem?
    (window : Window)
    (index : Nat) :
    window.byte? index = window.toBytes[index]? := by
  unfold byte?
  split
  · next inside =>
      rw [toBytes_eq, List.getElem?_take_of_lt inside, List.getElem?_drop,
        Array.getElem?_toList]
  · next outside =>
      rw [List.getElem?_eq_none (by rw [length_toBytes]; omega)]

/-- The chunks of a window show the chunks of its byte string. -/
theorem map_toBytes_chunks
    (size : Nat)
    (window : Window) :
    (window.chunks size).map toBytes = window.toBytes.chunks size := by
  have isEmpty : window.toBytes = [] ↔ window.size = 0 := by
    rw [← List.length_eq_zero_iff, length_toBytes]
  unfold chunks Bytes.chunks
  split
  · next finished => rw [if_pos (by rwa [isEmpty]), List.map_nil]
  · next unfinished =>
      rw [if_neg (by rwa [isEmpty]), List.map_cons, map_toBytes_chunks,
        toBytes_take, toBytes_drop]
termination_by window.size
decreasing_by
  simp only [drop, Window.size] at *
  omega

/-- An index below the size has its byte. -/
theorem byte?_eq_some_byteAt
    {window : Window}
    {index : Nat}
    (inside : index < window.size) :
    window.byte? index = some (window.byteAt index) := by
  have ordered := window.start_le_stop
  have stored := window.stop_le_size
  have within : window.start + index < window.contents.size := by
    simp only [size] at inside
    omega
  simp [byte?, byteAt, inside, within]

/-- Windows agree up to an index if the bytes before it are the same. -/
theorem agreeUpTo_iff
    {first second : Window}
    {count : Nat}
    (firstFits : count ≤ first.size)
    (secondFits : count ≤ second.size) :
    agreeUpTo first second count = true ↔
      ∀ index < count, first.toBytes[index]? = second.toBytes[index]? := by
  induction count with
  | zero => simp [agreeUpTo]
  | succ count inductionHypothesis =>
      have lastByte : first.byteAt count = second.byteAt count ↔
          first.toBytes[count]? = second.toBytes[count]? := by
        rw [← byte?_eq_getElem?, ← byte?_eq_getElem?,
          byte?_eq_some_byteAt (by omega), byte?_eq_some_byteAt (by omega),
          Option.some.injEq]
      simp only [agreeUpTo, Bool.and_eq_true, beq_iff_eq, lastByte,
        inductionHypothesis (by omega) (by omega)]
      constructor
      · rintro ⟨last, earlier⟩ index below
        by_cases isLast : index = count
        · exact isLast ▸ last
        · exact earlier index (by omega)
      · intro agree
        exact
          ⟨agree count (by omega), fun index below => agree index (by omega)⟩

/-- Two windows show the same bytes if their byte strings are equal. -/
theorem shows_iff
    (first second : Window) :
    first.shows second = true ↔ first.toBytes = second.toBytes := by
  simp only [shows, Bool.and_eq_true, beq_iff_eq]
  constructor
  · rintro ⟨sizes, agree⟩
    rw [agreeUpTo_iff (Nat.le_refl _) (by omega)] at agree
    apply List.ext_getElem?
    intro index
    by_cases inside : index < first.size
    · exact agree index inside
    · rw [List.getElem?_eq_none (by rw [length_toBytes]; omega),
        List.getElem?_eq_none (by rw [length_toBytes]; omega)]
  · intro same
    have sizes : first.size = second.size := by
      rw [← length_toBytes, same, length_toBytes]
    refine ⟨sizes, ?_⟩
    rw [agreeUpTo_iff (Nat.le_refl _) (by omega)]
    intro index _
    rw [same]

end Window

end VideoCore
