import VideoCore.Proofs.Walk.Agreement
import VideoCore.Proofs.Walk.Listing

namespace VideoCore

/-!
# Walks tile their regions

Every byte of a region that is walked belongs to one packet or form.  What an
item lists lies at the cursor, and the next item begins where the cursor is left
(`Lists`); put together, the entries of a walk tile its region (`list_isTiled`).
-/

namespace Walk

/-! ## What items list -/

/-- What decoding an item lists. -/
inductive Lists
    (byteAt? : Int → Option UInt8)
    (cursor : Cursor) :
    Progress → Prop where
  /-- Nothing but errors, and nothing follows. -/
  | errors
      {events : List Event}
      {outcome : Except Fault Outlook}
      (areErrors :
        ∀ entry ∈ Event.entries events, entry.kind = .error)
      (stops : ∀ phase, outcome ≠ .ok (.follows phase)) :
      Lists byteAt? cursor ⟨events, cursor, outcome⟩
  /-- A packet that does not fit. -/
  | refused
      {events : List Event}
      {packet error : Entry}
      {high : Int}
      (shown : Event.entries events = [packet, error])
      (listed :
        Entry.IsPacketListing byteAt? cursor.addr high packet [])
      (refusal : error.IsRefusal) :
      Lists byteAt? cursor ⟨events, cursor, .ok (.ended .stopped)⟩
  /-- A packet that leads nowhere. -/
  | interrupted
      {events : List Event}
      {packet : Entry}
      {fields : List Entry}
      {high : Int}
      {fault : Fault}
      (shown : Event.entries events = packet :: fields)
      (listed :
        Entry.IsPacketListing byteAt? cursor.addr high packet fields) :
      Lists byteAt? cursor ⟨events, cursor, .error fault⟩
  | packet
      {events : List Event}
      {packet : Entry}
      {fields : List Entry}
      {next : Cursor}
      {outlook : Outlook}
      (shown : Event.entries events = packet :: fields)
      (listed :
        Entry.IsPacketListing byteAt? cursor.addr next.addr packet
          fields)
      (inside : next.addr ≤ cursor.stop) :
      Lists byteAt? cursor ⟨events, next, .ok outlook⟩
  | form
      {events : List Event}
      {entry : Entry}
      {next : Cursor}
      {outcome : Except Fault Outlook}
      (shown : Event.entries events = [entry])
      (isForm : entry.kind = .compressed)
      (spans : entry.Spans byteAt? cursor.addr next.addr)
      (inside : next.addr ≤ cursor.stop) :
      Lists byteAt? cursor ⟨events, next, outcome⟩

variable {memory : Memory} {byteAt? : Int → Option UInt8}
  {cursor : Cursor}

/-- A cursor stands at the byte that is stored at its address. -/
theorem byteAt?_of_peek
    (within : cursor.Within)
    (shows : cursor.Shows byteAt?)
    {byte : UInt8}
    (peeked : cursor.peek = .ok byte) :
    byteAt? cursor.addr = some byte := by
  rw [within.peek_eq, List.head?_eq_getElem?, shows 0] at peeked
  split at peeked
  · rw [Int.natCast_zero, Int.add_zero] at peeked
    cases stored : byteAt? cursor.addr with
    | none =>
        rw [stored] at peeked
        contradiction
    | some other =>
        rw [stored] at peeked
        cases peeked
        rfl
  · contradiction

/-- A packet whose fields are listed within it. -/
theorem isPacketListing
    {type : PacketType}
    {opcode : UInt8}
    {fields : List Entry}
    (stored : byteAt? cursor.addr = some opcode)
    (found : PacketType.find? opcode.toNat = some type)
    (within :
      Entry.AreFieldsWithin cursor.addr (cursor.addr + type.size)
        fields) :
    Entry.IsPacketListing byteAt? cursor.addr (cursor.addr + type.size)
      ⟨some cursor.addr, type.name, .integer opcode.toNat, .packet⟩
      fields where
  isPacket := rfl
  spans :=
    ⟨opcode, type.size, rfl, stored,
      by simp only [Entry.sizeWith?, found, Option.map_some], rfl⟩
  within := within

/-- A known packet that fits is listed in its place. -/
theorem knownPacket_lists
    {type : PacketType}
    {opcode : UInt8}
    (stored : byteAt? cursor.addr = some opcode)
    (found : PacketType.find? opcode.toNat = some type)
    (fits : cursor.fits type.size = true) :
    Lists byteAt? cursor (knownPacket memory cursor opcode.toNat type) := by
  simp only [Cursor.fits, decide_eq_true_eq] at fits
  unfold knownPacket
  split
  · exact .errors (by simp [Event.entries]) (by simp)
  · next record reads =>
      dsimp only
      split
      · exact .interrupted rfl
          (isPacketListing stored found ⟨by simp, by simp, .nil⟩)
      · next entries entriesAre =>
          have listed :=
            isPacketListing stored found
              (RecordType.entries_areFieldsWithin reads
                (PacketType.size?_of_find? found) entriesAre)
          unfold carryOut
          have shown :
              Event.entries
                  (packetEvent type cursor.addr opcode.toNat ::
                    entries.map .entry) =
                _ :: entries :=
            congrArg (_ :: ·) (Event.entries_map_entry entries)
          split
          · exact .interrupted shown listed
          · refine .packet ?_ listed fits
            rw [Event.entries_append, shown, Event.entries_map_request,
              List.append_nil]

/-- A packet is listed in its place, or an error instead. -/
theorem packet_lists
    (within : cursor.Within)
    (shows : cursor.Shows byteAt?) :
    Lists byteAt? cursor (packet memory cursor) := by
  unfold packet
  split
  · exact .errors (by simp [Event.entries]) (by simp)
  · next opcode peeked =>
      have stored := byteAt?_of_peek within shows peeked
      split
      · exact .errors (by simp [Event.entries]) (by simp)
      · next type found =>
          split
          · next fits =>
              exact knownPacket_lists stored found fits
          · exact .refused rfl
              (isPacketListing stored found ⟨by simp, by simp, .nil⟩)
              ⟨rfl, .inl rfl⟩

/-- A form that fits is listed in its place. -/
theorem knownForm_lists
    {kind : IndexForm}
    {code : UInt8}
    (stored : byteAt? cursor.addr = some code)
    (selected : IndexForm.ofCode code.toNat = kind)
    (fits : cursor.fits kind.size = true) :
    Lists byteAt? cursor (knownForm memory cursor kind) := by
  simp only [Cursor.fits, decide_eq_true_eq] at fits
  have spans :
      ∀ value,
        Entry.Spans byteAt?
          ⟨some cursor.addr, kind.name, value, .compressed⟩
          cursor.addr (cursor.addr + kind.size) :=
    fun value =>
      ⟨code, kind.size, rfl, stored, by rw [← selected]; rfl, rfl⟩
  unfold knownForm
  split
  · exact .errors (by simp [Event.entries]) (by simp)
  · dsimp only
    cases kind with
    | branch =>
        unfold followBranch
        dsimp only
        split <;> exact .form rfl rfl (spans _) fits
    | escape | absolute | absoluteRelative | threeRelative
    | oneRelative =>
        exact .form rfl rfl (spans _) fits

/-- A form is listed in its place, or an error instead. -/
theorem form_lists
    (within : cursor.Within)
    (shows : cursor.Shows byteAt?) :
    Lists byteAt? cursor (form memory cursor) := by
  unfold form
  split
  · exact .errors (by simp [Event.entries]) (by simp)
  · next code peeked =>
      dsimp only
      split
      · next fits =>
          exact knownForm_lists (byteAt?_of_peek within shows peeked) rfl fits
      · exact .errors (by simp [Event.entries, overflowEvent]) (by simp)

/-- An item is listed in its place, or an error instead. -/
theorem item_lists
    (memory : Memory)
    (phase : Phase)
    (within : cursor.Within)
    (shows : cursor.Shows byteAt?) :
    Lists byteAt? cursor (item memory phase cursor) := by
  unfold item
  split
  · split
    · exact packet_lists within shows
    · exact .errors (by simp [Event.entries]) (by simp)
  · split
    · exact .errors (by simp [Event.entries, unsupportedEvent]) (by simp)
    · split
      · exact form_lists within shows
      · exact .errors (by simp [Event.entries]) (by simp)

/-! ## What walks list -/

/--
A conclusion adds nothing to a run that ends, and an error to one that fails.
-/
theorem entries_conclude
    {progress : Progress}
    {last : Cursor}
    (left : (conclude memory progress).outcome = .ok (some last)) :
    last = progress.cursor ∧
      ((∃ outlook, progress.outcome = .ok outlook) ∧
          Event.entries (conclude memory progress).events =
            Event.entries progress.events ∨
        ∃ fault error,
          progress.outcome = .error fault ∧
            error.IsRefusal ∧
            Event.entries (conclude memory progress).events =
              Event.entries progress.events ++ [error]) := by
  rw [outcome_conclude] at left
  rw [events_conclude, Event.entries_append, closing]
  cases ended : progress.outcome with
  | ok outlook =>
      rw [ended] at left
      cases left
      exact ⟨rfl, .inl ⟨⟨outlook, rfl⟩, List.append_nil _⟩⟩
  | error fault =>
      simp only [ended] at left
      split at left
      · next uncaptured =>
          cases left
          refine
            ⟨rfl, .inr ⟨fault, ⟨some progress.cursor.addr,
              Entry.unresolved, fault.address, .error⟩, rfl,
              ⟨rfl, .inr rfl⟩, ?_⟩⟩
          simp only [uncaptured, if_true]
          rfl
      · contradiction

/-- The last item of a walk ends its listing. -/
theorem Lists.ends
    {progress : Progress}
    {last : Cursor}
    (lists : Lists byteAt? cursor progress)
    (left : (conclude memory progress).outcome = .ok (some last)) :
    Entry.Listing byteAt? cursor.stop cursor.addr
      (Event.entries (conclude memory progress).events) last.addr := by
  obtain ⟨rfl, ⟨⟨outlook, ended⟩, same⟩ | ⟨fault, error, failed, refusal,
    reported⟩⟩ := entries_conclude left
  · rw [same]
    cases lists with
    | errors areErrors stops =>
        exact .ends areErrors
    | refused shown listed refusal =>
        rw [shown]
        exact .refused listed refusal
    | interrupted shown listed =>
        contradiction
    | packet shown listed inside =>
        rw [shown, ← List.append_nil (_ :: _)]
        exact .packet listed inside (.ends (by simp))
    | form shown isForm spans inside =>
        rw [shown]
        exact .form isForm spans inside (.ends (by simp))
  · rw [reported]
    cases lists with
    | errors areErrors stops =>
        refine .ends ?_
        intro entry member
        rcases List.mem_append.mp member with found | isLast
        · exact areErrors entry found
        · obtain rfl := List.mem_singleton.mp isLast
          exact refusal.isError
    | refused | packet =>
        contradiction
    | interrupted shown listed =>
        rw [shown]
        exact .refused listed refusal
    | form shown isForm spans inside =>
        rw [shown]
        exact .form isForm spans inside (.ends (by simp [refusal.isError]))

/-- An item that others follow is listed in front of them. -/
theorem Lists.goesOn
    {progress : Progress}
    {phase : Phase}
    {entries : List Entry}
    {reached : Int}
    (lists : Lists byteAt? cursor progress)
    (follows : progress.outcome = .ok (.follows phase))
    (later :
      Entry.Listing byteAt? cursor.stop progress.cursor.addr entries
        reached) :
    Entry.Listing byteAt? cursor.stop cursor.addr
      (Event.entries progress.events ++ entries) reached := by
  cases lists with
  | errors areErrors stops =>
      exact absurd follows (stops phase)
  | refused | interrupted =>
      cases follows
  | packet shown listed inside =>
      rw [shown]
      exact .packet listed inside later
  | form shown isForm spans inside =>
      rw [shown]
      exact .form isForm spans inside later

/-- What a run lists is in order from where it starts to where it stops. -/
theorem Runs.listing
    {phase : Phase}
    {progress : Progress}
    {last : Cursor}
    (runs : Runs (fun _ => true) memory phase cursor progress)
    (within : cursor.Within)
    (shows : cursor.Shows byteAt?)
    (left : (conclude memory progress).outcome = .ok (some last)) :
    Entry.Listing byteAt? cursor.stop cursor.addr
      (Event.entries (conclude memory progress).events) last.addr := by
  -- Every item leaves the cursor where the next one is listed.
  induction runs with
  | @last phase cursor ends =>
      exact (item_lists memory phase within shows).ends left
  | @goesOn phase next cursor progress follows isWanted later
      inductionHypothesis =>
      have moves := item_moves memory phase cursor
      obtain ⟨eventsAre, outcomeIs⟩ :=
        conclude_after memory progress (item memory phase cursor).events
      have rest :=
        inductionHypothesis (within.of_moves moves)
          (shows.of_moves within moves) (outcomeIs ▸ left)
      rw [moves.stop_eq] at rest
      rw [eventsAre, Event.entries_append]
      exact (item_lists memory phase within shows).goesOn follows rest

/--
A walk that leaves a cursor tiles its region: packets and forms lie side by side
from its start up to the cursor, but for a last packet that is refused; fields
lie within their packets; and the addresses of all entries but errors are in
order.
-/
theorem list_isTiled
    {region : ListRegion}
    {cursor : Cursor}
    (left : (list memory region).outcome = .ok (some cursor)) :
    ∃ limit,
      memory.regionEnd region.start = .ok limit ∧
        Entry.IsTiling (memory.byteAt? region.start) region.start
          (min region.stop limit) cursor.addr
          (Event.entries (list memory region).events) := by
  by_cases covered : memory.Covers region.start
  · obtain ⟨_, captured, _⟩ := Memory.regionEnd_of_covers covered
    obtain ⟨start, starts, _, _⟩ := list_of_regionEnd captured
    obtain ⟨limit, resolved, isStart, eventsAre, outcomeIs⟩ :=
      list_of_cursor? starts
    have listing :=
      (runs_run memory region.phase start).listing isStart.within
        (isStart.shows resolved starts) (outcomeIs ▸ left)
    rw [isStart.addr_eq, isStart.stop_eq] at listing
    refine ⟨limit, resolved, ?_⟩
    rw [eventsAre, Event.entries_append,
      (entries_clampEvents region limit).1]
    exact listing.isTiling
  · rw [list, Memory.regionEnd_of_not_covers covered] at left
    cases left

/--
A buffer with a format, compressed data, and a call of a list that is not
captured.
-/
def stranded : Memory :=
  [⟨1, 0x1000, #[56, 0x12, 48, 0x04, 128, 17, 0, 0, 0, 0x90], some 0⟩]

/-- The list that fills the buffer. -/
def strandedRegion : ListRegion :=
  ⟨0x1000, 0x100a, false, unsetPrimMode, .packets⟩

/-- All items but the call are passed, which is listed nevertheless. -/
theorem list_isTiled_stranded :
    ∃ cursor,
      (list stranded strandedRegion).outcome = .ok (some cursor) ∧
        cursor.state = (0x1005, 0x100a, 0x12) ∧
        ∃ limit,
          stranded.regionEnd 0x1000 = .ok limit ∧
            Entry.IsTiling (stranded.byteAt? 0x1000) 0x1000
              (min 0x100a limit) cursor.addr
              (Event.entries (list stranded strandedRegion).events) := by
  have state :
      (list stranded strandedRegion).outcome.map
          (Option.map Cursor.state) =
        .ok (some (0x1005, 0x100a, 0x12)) := by
    decide +kernel
  cases left : (list stranded strandedRegion).outcome with
  | error fault =>
      rw [left] at state
      contradiction
  | ok cursor? =>
      rw [left] at state
      cases cursor? with
      | none =>
          contradiction
      | some cursor =>
          exact ⟨cursor, rfl, Option.some.inj (Except.ok.inj state),
            list_isTiled left⟩

end Walk

end VideoCore
