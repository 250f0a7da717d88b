import VideoCore.Compressed
import VideoCore.Packet.Effect
import VideoCore.Report.Event
import VideoCore.Walk.Cursor

namespace VideoCore

/-!
# Items of a walk

A list is a sequence of items: packets, and forms of compressed index data.
Decoding an item produces events, moves the cursor past the item, and tells
what follows it.  An item that leads to another one is never empty, so the
distance to the end of the region shrinks.
-/

/-- Which items stand at the cursor. -/
inductive Phase
  /-- Packets. -/
  | packets
  /-- Forms of compressed index data. -/
  | forms
deriving DecidableEq

/-- Why nothing more is decoded. -/
inductive Ending
  /-- The list ends here. -/
  | done
  /-- Compressed index data goes on elsewhere. -/
  | branched
  /-- What stands at the cursor cannot be decoded. -/
  | stopped
deriving DecidableEq

/-- What comes after an item. -/
inductive Outlook
  | follows (phase : Phase)
  | ended (ending : Ending)
deriving DecidableEq

/--
The events of a part of a walk, where it left the cursor, and what comes next.
-/
structure Progress where
  events : List Event
  cursor : Cursor
  outcome : Except Fault Outlook

namespace Progress

/-- The same progress after earlier events. -/
def after
    (progress : Progress)
    (earlier : List Event) : Progress :=
  { progress with events := earlier ++ progress.events }

end Progress

namespace Walk

/-- The entry that says that an item does not fit. -/
def overflowEvent (cursor : Cursor) : Event :=
  .entry ⟨some cursor.stop, Entry.overflow, .absent, .error⟩

/-- The entry for a packet. -/
def packetEvent
    (type : PacketType)
    (addr opcode : Int) : Event :=
  .entry ⟨some addr, type.name, .integer opcode, .packet⟩

/-- The entry for a form of compressed index data. -/
def formEvent
    (form : IndexForm)
    (addr : Int)
    (value : Value) : Event :=
  .entry ⟨some addr, form.name, value, .compressed⟩

/-- What comes after a packet that has been decoded. -/
def outlookAfter (type : PacketType) : Outlook :=
  if type.terminal then
    .ended .done
  else if type.compressed then
    .follows .forms
  else
    .follows .packets

/--
Carry out a packet whose events are known; the cursor moves only if that
succeeds.
-/
def carryOut
    (memory : Memory)
    (cursor : Cursor)
    (type : PacketType)
    (record : Record)
    (shown : List Event) : Progress :=
  match type.effect.apply memory cursor.primMode record.fields with
  | .error fault => ⟨shown, cursor, .error fault⟩
  | .ok consequence =>
      ⟨shown ++ consequence.area.toList.map .request,
        { cursor.advance type.size with primMode := consequence.primMode },
        .ok (outlookAfter type)⟩

/-- Decode a packet of a known type that fits. -/
def knownPacket
    (memory : Memory)
    (cursor : Cursor)
    (opcode : Int)
    (type : PacketType) : Progress :=
  match type.record.read (cursor.take type.size) (some cursor.addr) with
  | .error fault => ⟨[], cursor, .error fault⟩
  | .ok record =>
      let head := packetEvent type cursor.addr opcode
      match record.entries id ["opcode"] with
      | .error fault => ⟨[head], cursor, .error fault⟩
      | .ok entries =>
          carryOut memory cursor type record (head :: entries.map .entry)

/-- Decode a packet. -/
def packet
    (memory : Memory)
    (cursor : Cursor) : Progress :=
  match cursor.peek with
  | .error fault => ⟨[], cursor, .error fault⟩
  | .ok opcode =>
      match PacketType.find? opcode.toNat with
      | none =>
          ⟨[.entry ⟨some cursor.addr, Entry.unknownPacket,
              .integer opcode.toNat, .error⟩],
            cursor, .ok (.ended .stopped)⟩
      | some type =>
          if cursor.fits type.size then
            knownPacket memory cursor opcode.toNat type
          else
            ⟨[packetEvent type cursor.addr opcode.toNat, overflowEvent cursor],
              cursor, .ok (.ended .stopped)⟩

/-- Follow a relative branch at `addr`; `next` is the cursor after it. -/
def followBranch
    (memory : Memory)
    (addr : Int)
    (next : Cursor)
    (fields : Fields) : Progress :=
  let target := IndexForm.branchTarget (fields.integer "offset") addr
  let shown := formEvent .branch addr (.integer target)
  match memory.compressedListAt target next.primMode with
  | .error fault => ⟨[shown], next, .error fault⟩
  | .ok area => ⟨[shown, .request area], next, .ok (.ended .branched)⟩

/-- Decode a form of a known kind that fits. -/
def knownForm
    (memory : Memory)
    (cursor : Cursor)
    (form : IndexForm) : Progress :=
  match form.record.read (cursor.take form.size) (some cursor.addr) with
  | .error fault => ⟨[], cursor, .error fault⟩
  | .ok record =>
      let next := cursor.advance form.size
      match form with
      | .escape =>
          ⟨[formEvent form cursor.addr .absent], next, .ok (.follows .packets)⟩
      | .branch =>
          followBranch memory cursor.addr next record.fields
      | _ =>
          ⟨[formEvent form cursor.addr (form.indices record.fields)], next,
            .ok (.follows .forms)⟩

/-- Decode a form of compressed index data. -/
def form
    (memory : Memory)
    (cursor : Cursor) : Progress :=
  match cursor.peek with
  | .error fault => ⟨[], cursor, .error fault⟩
  | .ok code =>
      let form := IndexForm.ofCode code.toNat
      if cursor.fits form.size then
        knownForm memory cursor form
      else
        ⟨[overflowEvent cursor], cursor, .ok (.ended .stopped)⟩

/--
The entry that says that compressed data has a format that is not decoded.
-/
def unsupportedEvent (cursor : Cursor) : Event :=
  .entry
    ⟨some cursor.addr, Entry.unsupportedMode, .integer cursor.primMode,
      .error⟩

/--
Decode the next item of a phase.  A list ends at the end of its region.
Compressed data is refused, even there, unless its format is the one that is
decoded.
-/
def item
    (memory : Memory)
    (phase : Phase)
    (cursor : Cursor) : Progress :=
  match phase with
  | .packets =>
      if cursor.addr < cursor.stop then
        packet memory cursor
      else
        ⟨[], cursor, .ok (.ended .done)⟩
  | .forms =>
      if cursor.primMode ≠ trianglesPrimMode then
        ⟨[unsupportedEvent cursor], cursor, .ok (.ended .stopped)⟩
      else if cursor.addr < cursor.stop then
        form memory cursor
      else
        ⟨[], cursor, .ok (.ended .done)⟩

/-- What is left of a region, as a measure. -/
def remaining (cursor : Cursor) : Nat :=
  (cursor.stop - cursor.addr).toNat

/-- Behind a packet that others follow, less is left. -/
theorem remaining_carryOut_lt
    {memory : Memory}
    {cursor : Cursor}
    {type : PacketType}
    {record : Record}
    {shown : List Event}
    {phase : Phase}
    (sizePositive : 0 < type.size)
    (fits : cursor.fits type.size = true)
    (follows : (carryOut memory cursor type record shown).outcome =
      .ok (.follows phase)) :
    remaining (carryOut memory cursor type record shown).cursor <
      remaining cursor := by
  simp only [carryOut] at follows ⊢
  split at follows
  · simp at follows
  · simp only [Cursor.fits, decide_eq_true_eq] at fits
    simp only [remaining, Cursor.advance]
    omega

/-- Behind a packet that others follow, less is left, known or not. -/
theorem remaining_packet_lt
    {memory : Memory}
    {cursor : Cursor}
    {phase : Phase}
    (follows : (packet memory cursor).outcome = .ok (.follows phase)) :
    remaining (packet memory cursor).cursor < remaining cursor := by
  revert follows
  unfold packet
  split
  · simp
  · split
    · simp
    · rename_i found
      split
      · rename_i fits
        unfold knownPacket
        split
        · simp
        · dsimp only
          split
          · simp
          · exact
              remaining_carryOut_lt (PacketType.size_pos_of_find? found) fits
      · simp

theorem remaining_knownForm_lt
    {memory : Memory}
    {cursor : Cursor}
    {form : IndexForm}
    {phase : Phase}
    (fits : cursor.fits form.size = true)
    (follows : (knownForm memory cursor form).outcome = .ok (.follows phase)) :
    remaining (knownForm memory cursor form).cursor < remaining cursor := by
  have sizePositive := form.size_pos
  simp only [Cursor.fits, decide_eq_true_eq] at fits
  revert follows
  unfold knownForm
  split
  · simp
  · dsimp only
    split
    · simp only [remaining, Cursor.advance]
      omega
    · unfold followBranch
      dsimp only
      split <;> simp
    · simp only [remaining, Cursor.advance]
      omega

/-- Whichever form it is, less is left behind it. -/
theorem remaining_form_lt
    {memory : Memory}
    {cursor : Cursor}
    {phase : Phase}
    (follows : (form memory cursor).outcome = .ok (.follows phase)) :
    remaining (form memory cursor).cursor < remaining cursor := by
  revert follows
  unfold form
  split
  · simp
  · dsimp only
    split
    · exact remaining_knownForm_lt (by assumption)
    · simp

/-- An item that another one follows brings the end of the region nearer. -/
theorem remaining_item_lt
    {memory : Memory}
    {phase next : Phase}
    {cursor : Cursor}
    (follows : (item memory phase cursor).outcome = .ok (.follows next)) :
    remaining (item memory phase cursor).cursor < remaining cursor := by
  revert follows
  unfold item
  split
  · split
    · exact remaining_packet_lt
    · simp
  · split
    · simp
    · split
      · exact remaining_form_lt
      · simp

end Walk

end VideoCore
