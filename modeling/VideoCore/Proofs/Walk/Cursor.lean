import VideoCore.Proofs.Packet.Effect
import VideoCore.Walk.Cursor

namespace VideoCore

/-!
# Laws of cursors

A cursor that stays within its region sees the byte it stands at, and as many
bytes from there on as fit.  Decoding only ever moves a cursor ahead.
-/

namespace Bytes

variable {length : Nat} {index : Int}

theorem position?_of_lt
    (lower : 0 ≤ index)
    (upper : index < length) :
    position? length index = some index.toNat := by
  rw [position?, if_neg (by omega), if_pos upper]

/-- A bound that is not negative is cut off at the end of the string. -/
theorem clampBound_of_nonneg
    (lower : 0 ≤ index) :
    clampBound length index = min index.toNat length := by
  rw [clampBound, if_neg (by omega)]

end Bytes

namespace Cursor

/--
What is left of a cursor in the end: where it stands, its end and its format.
-/
def state (cursor : Cursor) : Int × Int × Int :=
  (cursor.addr, cursor.stop, cursor.primMode)

/-- Whether a cursor is in its region, all bytes of which are at hand. -/
structure Within (cursor : Cursor) : Prop where
  started : cursor.start ≤ cursor.addr
  ended : cursor.addr ≤ max cursor.start cursor.stop
  shown : cursor.window.size = (cursor.stop - cursor.start).toNat

/-- Whether a cursor is another one, in its place or further on. -/
structure Moves (cursor next : Cursor) : Prop where
  start_eq : next.start = cursor.start
  stop_eq : next.stop = cursor.stop
  window_eq : next.window = cursor.window
  isRender_eq : next.isRender = cursor.isRender
  place :
    next.addr = cursor.addr ∨
      cursor.addr < next.addr ∧ next.addr ≤ cursor.stop

variable {cursor next last : Cursor}

/-- The bytes from the position on. -/
def rest (cursor : Cursor) : Bytes :=
  cursor.window.toBytes.drop cursor.offset.toNat

theorem rest_atStart
    (start stop : Int)
    (window : Window)
    (isRender : Bool)
    (primMode : Int) :
    (atStart start stop window isRender primMode).rest =
      window.toBytes := by
  rw [rest, offset, atStart, Int.sub_self, Int.toNat_zero,
    List.drop_zero]

/-- A cursor starts within its bytes. -/
theorem within_atStart
    {start stop primMode : Int}
    {window : Window}
    (shown : window.size = (stop - start).toNat)
    (isRender : Bool) :
    (atStart start stop window isRender primMode).Within where
  started := Int.le_refl _
  ended := Int.le_max_left _ _
  shown := shown

theorem Moves.refl
    (cursor : Cursor) :
    cursor.Moves cursor :=
  ⟨rfl, rfl, rfl, rfl, Or.inl rfl⟩

theorem Moves.trans
    (first : cursor.Moves next)
    (second : next.Moves last) :
    cursor.Moves last where
  start_eq := second.start_eq.trans first.start_eq
  stop_eq := second.stop_eq.trans first.stop_eq
  window_eq := second.window_eq.trans first.window_eq
  isRender_eq := second.isRender_eq.trans first.isRender_eq
  place := by
    have stop_eq := first.stop_eq
    have firstPlace := first.place
    have secondPlace := second.place
    omega

/-- A cursor that moves stays in its region. -/
theorem Within.of_moves
    (within : cursor.Within)
    (moves : cursor.Moves next) :
    next.Within where
  started := by
    have started := within.started
    have start_eq := moves.start_eq
    have place := moves.place
    omega
  ended := by
    have ended := within.ended
    have start_eq := moves.start_eq
    have stop_eq := moves.stop_eq
    have place := moves.place
    omega
  shown := by
    rw [moves.window_eq, moves.start_eq, moves.stop_eq]
    exact within.shown

/-- A cursor that moves ahead leaves the bytes between behind it. -/
theorem Within.rest_of_moves
    (within : cursor.Within)
    (moves : cursor.Moves next) :
    next.rest = cursor.rest.drop (next.addr - cursor.addr).toNat := by
  have started := within.started
  have place := moves.place
  have split :
      (next.addr - cursor.start).toNat =
        (cursor.addr - cursor.start).toNat +
          (next.addr - cursor.addr).toNat := by
    omega
  simp only [rest, offset, moves.window_eq, moves.start_eq, split,
    List.drop_drop]

theorem advance_add
    (cursor : Cursor)
    (first second : Int) :
    cursor.advance (first + second) =
      (cursor.advance first).advance second := by
  simp only [advance, Int.add_assoc]

/--
Whether the bytes that are left are those at their addresses, up to the end.
-/
def Shows
    (cursor : Cursor)
    (byteAt? : Int → Option UInt8) : Prop :=
  ∀ index : Nat,
    cursor.rest[index]? =
      if cursor.addr + index < cursor.stop then
        byteAt? (cursor.addr + index)
      else
        none

/-- A cursor that moves ahead shows the same memory. -/
theorem Shows.of_moves
    {byteAt? : Int → Option UInt8}
    (shows : cursor.Shows byteAt?)
    (within : cursor.Within)
    (moves : cursor.Moves next) :
    next.Shows byteAt? := by
  intro index
  have place := moves.place
  have address :
      cursor.addr + ((next.addr - cursor.addr).toNat + index : Nat) =
        next.addr + index := by
    omega
  rw [within.rest_of_moves moves, List.getElem?_drop, shows, address,
    moves.stop_eq]

/-- An item that fits moves the cursor ahead. -/
theorem moves_advance
    {size : Nat}
    (positive : 0 < size)
    (fits : cursor.fits size = true)
    (primMode : Int) :
    cursor.Moves { cursor.advance size with primMode := primMode } where
  start_eq := rfl
  stop_eq := rfl
  window_eq := rfl
  isRender_eq := rfl
  place := by
    simp only [Cursor.fits, decide_eq_true_eq] at fits
    simp only [advance]
    omega

namespace Within

theorem offset_nonneg
    (within : cursor.Within) :
    0 ≤ cursor.offset :=
  Int.sub_nonneg_of_le within.started

/-- As many bytes are left as lie before the end of the region. -/
theorem length_rest
    (within : cursor.Within) :
    cursor.rest.length = (cursor.stop - cursor.addr).toNat := by
  have lower := within.offset_nonneg
  have shown := within.shown
  have offsetIs : cursor.offset = cursor.addr - cursor.start := rfl
  rw [rest, List.length_drop, Window.length_toBytes]
  omega

/-- A cursor stands at the first byte that is left. -/
theorem peek_eq
    (within : cursor.Within) :
    cursor.peek = cursor.rest.head?.elim (.error .outsideData) .ok := by
  have lower := within.offset_nonneg
  rw [peek, rest, List.head?_drop]
  by_cases upper : cursor.offset < cursor.window.size
  · rw [Bytes.position?_of_lt lower upper, Option.bind_some,
      Window.byte?_eq_getElem?]
    cases cursor.window.toBytes[cursor.offset.toNat]? <;> rfl
  · have missing : cursor.window.toBytes[cursor.offset.toNat]? = none := by
      apply List.getElem?_eq_none
      rw [Window.length_toBytes]
      omega
    rw [missing, Bytes.position?, if_neg (by omega), if_neg upper]
    rfl

/-- A cursor is no further on than its bytes reach. -/
theorem offset_le_size
    (within : cursor.Within) :
    cursor.offset.toNat ≤ cursor.window.size := by
  have ended := within.ended
  have shown := within.shown
  have offsetIs : cursor.offset = cursor.addr - cursor.start := rfl
  omega

/-- Bytes are taken off the front of those that are left. -/
theorem take_eq
    (within : cursor.Within)
    (size : Nat) :
    cursor.take size = cursor.rest.take size := by
  have lower := within.offset_nonneg
  have upper := within.offset_le_size
  simp only [take, Window.slice, Window.toBytes_drop,
    Window.toBytes_take, Bytes.clampBound_of_nonneg lower,
    Bytes.clampBound_of_nonneg (Int.add_nonneg lower
      (Int.natCast_nonneg size)), rest]
  rw [Nat.min_eq_left upper, List.drop_take, List.take_eq_take_iff,
    List.length_drop, Window.length_toBytes]
  omega

/-- A cursor before the end of its region stands at a byte. -/
theorem exists_peek
    (within : cursor.Within)
    (left : cursor.addr < cursor.stop) :
    ∃ byte, cursor.peek = .ok byte := by
  have length := within.length_rest
  cases restIs : cursor.rest with
  | nil =>
      rw [restIs, List.length_nil] at length
      omega
  | cons byte later =>
      exact ⟨byte, by rw [within.peek_eq, restIs]; rfl⟩

/-- What is taken at a cursor begins with the byte that it stands at. -/
theorem take_one_of_peek
    (within : cursor.Within)
    {byte : UInt8}
    (peeked : cursor.peek = .ok byte)
    {size : Nat}
    (positive : 0 < size) :
    (cursor.take size).take 1 = [byte] := by
  rw [within.peek_eq] at peeked
  cases restIs : cursor.rest with
  | nil =>
      rw [restIs] at peeked
      contradiction
  | cons first later =>
      rw [restIs] at peeked
      cases peeked
      rw [within.take_eq, restIs, List.take_take,
        Nat.min_eq_left (by omega), List.take_succ_cons, List.take_zero]

/-- What fits is taken whole. -/
theorem length_take
    (within : cursor.Within)
    {size : Nat}
    (fits : cursor.fits size = true) :
    (cursor.take size).length = size := by
  simp only [Cursor.fits, decide_eq_true_eq] at fits
  rw [within.take_eq, List.length_take, within.length_rest]
  omega

end Within

/-- Whether a cursor is in its region, with some bytes left. -/
structure Has
    (cursor : Cursor)
    (bytes : Bytes) : Prop where
  within : cursor.Within
  rest_eq : cursor.rest = bytes

namespace Has

variable {bytes later : Bytes}

/-- The next byte is the first one of those that are there. -/
theorem peek_eq
    (has : cursor.Has (bytes ++ later))
    {byte : UInt8}
    (begins : bytes.head? = some byte) :
    cursor.peek = .ok byte := by
  rw [has.within.peek_eq, has.rest_eq, List.head?_append, begins]
  rfl

theorem take_eq
    (has : cursor.Has (bytes ++ later)) :
    cursor.take bytes.length = bytes := by
  rw [has.within.take_eq, has.rest_eq, List.take_left]

theorem addr_add_le
    (has : cursor.Has (bytes ++ later))
    (nonempty : 0 < bytes.length) :
    cursor.addr + bytes.length ≤ cursor.stop := by
  have length := has.within.length_rest
  rw [has.rest_eq, List.length_append] at length
  omega

theorem fits
    (has : cursor.Has (bytes ++ later))
    (nonempty : 0 < bytes.length) :
    cursor.fits bytes.length = true := by
  rw [Cursor.fits, decide_eq_true_eq]
  exact has.addr_add_le nonempty

/-- Behind some bytes, the later ones are there. -/
theorem advance
    (has : cursor.Has (bytes ++ later))
    (nonempty : 0 < bytes.length)
    (primMode : Int) :
    Has { cursor.advance bytes.length with primMode := primMode } later := by
  have moves := moves_advance nonempty (has.fits nonempty) primMode
  refine ⟨has.within.of_moves moves, ?_⟩
  have distance :
      (({ cursor.advance bytes.length with primMode := primMode } :
        Cursor).addr - cursor.addr).toNat = bytes.length := by
    simp only [Cursor.advance]
    omega
  rw [has.within.rest_of_moves moves, has.rest_eq, distance,
    List.drop_left]

end Has

/-- Whether a packet at the cursor refers to an extended shader record. -/
def MeetsExtendedReference (cursor : Cursor) : Prop :=
  ∃ opcode,
    cursor.peek = .ok opcode ∧
      cursor.fits PacketType.shaderState.size = true ∧
      IsExtendedReference opcode.toNat
        (cursor.take PacketType.shaderState.size)

end Cursor

end VideoCore
