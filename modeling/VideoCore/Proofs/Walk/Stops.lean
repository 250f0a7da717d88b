import VideoCore.Proofs.Walk.Requests
import VideoCore.Proofs.Walk.Resumption
import VideoCore.Proofs.Walk.Unresolved

namespace VideoCore

/-!
# Why walks stop

A walk has one reason to stop.  The reason is told by the one error in its
listing, which comes last, or else by the last item (`StopReason.Explains`); and
it says where the cursor is left (`Walk.list_stops`).
-/

/-- Why a walk stops. -/
inductive StopReason
  /-- A packet ends the list. -/
  | terminal
  /-- Compressed index data goes on elsewhere. -/
  | branched
  /-- The region is exhausted. -/
  | exhausted
  /-- No packet has the opcode at the cursor. -/
  | unknown
  /-- The item at the cursor does not fit. -/
  | overflow
  /-- Compressed index data has a format that is not decoded. -/
  | unsupported
  /-- A reference leads to an address in no buffer. -/
  | unresolved
deriving DecidableEq

/-- Whether no other item can follow one that has been decoded. -/
def ItemType.IsFinal : ItemType → Prop
  | .packet type => type.terminal = true
  | .form kind => kind = .branch

namespace Entry

/-- Whether a listing has no errors. -/
def AreFree (entries : List Entry) : Prop :=
  ∀ entry ∈ entries, entry.kind ≠ .error

/-- Whether a listing ends with an error, the only one in it. -/
def EndWith
    (entries : List Entry)
    (error : Entry) : Prop :=
  error.kind = .error ∧
    ∃ before, entries = before ++ [error] ∧ AreFree before

/-- The item of an entry, and the address behind it. -/
def itemAndEnd?
    (byteAt? : Int → Option UInt8)
    (entry : Entry) : Option (ItemType × Int) := do
  let addr ← entry.addr
  let item ← entry.item? byteAt?
  return (item, addr + item.size)

/-- The last item of a listing, and the address behind it. -/
def lastItem?
    (byteAt? : Int → Option UInt8)
    (entries : List Entry) : Option (ItemType × Int) :=
  (entries.filter isItem).getLast?.bind (itemAndEnd? byteAt?)

end Entry

open Walk (ListRegion)

/-- Whether a cursor is still at the start of a list of forms. -/
structure Walk.ListRegion.IsUntouched
    (region : ListRegion)
    (entries : List Entry)
    (cursor : Cursor) : Prop where
  noItems : entries.filter Entry.isItem = []
  isForms : region.phase = .forms
  addr_eq : cursor.addr = region.start
  primMode_eq : cursor.primMode = region.primMode

/--
Whether an item of a phase is due at a cursor behind a listing: a packet is
listed in front of the error, and a form comes behind an item that forms follow,
or at the start of a list of forms.
-/
def Walk.ListRegion.IsDue
    (byteAt? : Int → Option UInt8)
    (region : ListRegion)
    (entries : List Entry)
    (cursor : Cursor) : Phase → Prop
  | .packets =>
      ∃ before head error,
        entries = before ++ [head, error] ∧
          head.IsHead .packets cursor.addr
  | .forms =>
      (∃ item,
        Entry.lastItem? byteAt? entries = some (item, cursor.addr) ∧
          item.outlook = .follows .forms) ∨
        region.IsUntouched entries cursor

namespace StopReason

/--
Whether a walk over a list stops for a reason, given what it lists and the
cursor that it leaves.
-/
def Explains
    (memory : Memory)
    (byteAt? : Int → Option UInt8)
    (region : ListRegion)
    (entries : List Entry)
    (cursor : Cursor) : StopReason → Prop
  | .terminal =>
      Entry.AreFree entries ∧
        ∃ type,
          Entry.lastItem? byteAt? entries =
              some (.packet type, cursor.addr) ∧
            type.terminal = true
  | .branched =>
      Entry.AreFree entries ∧
        Entry.lastItem? byteAt? entries =
          some (.form .branch, cursor.addr)
  | .exhausted =>
      Entry.AreFree entries ∧
        (∀ item high,
          Entry.lastItem? byteAt? entries = some (item, high) →
          ¬item.IsFinal) ∧
        cursor.addr = max region.start cursor.stop
  | .unknown =>
      ∃ first : UInt8,
        byteAt? cursor.addr = some first ∧
          (∀ type ∈ PacketType.all, type.opcode ≠ some first.toNat) ∧
          Entry.EndWith entries
            ⟨some cursor.addr, Entry.unknownPacket,
              .integer first.toNat, .error⟩
  | .overflow =>
      cursor.addr < cursor.stop ∧
        (∃ phase item,
          region.IsDue byteAt? entries cursor phase ∧
            itemAt? byteAt? phase cursor.addr = some item ∧
            cursor.stop < cursor.addr + item.size) ∧
        Entry.EndWith entries
          ⟨some cursor.stop, Entry.overflow, .absent, .error⟩
  | .unsupported =>
      cursor.primMode ≠ trianglesPrimMode ∧
        ((∃ type,
          Entry.lastItem? byteAt? entries =
              some (.packet type, cursor.addr) ∧
            type.compressed = true) ∨
          region.IsUntouched entries cursor) ∧
        Entry.EndWith entries
          ⟨some cursor.addr, Entry.unsupportedMode,
            .integer cursor.primMode, .error⟩
  | .unresolved =>
      ∃ target,
        ¬memory.Covers target ∧
          Entry.EndWith entries
            ⟨some cursor.addr, Entry.unresolved, .integer target, .error⟩

end StopReason

variable {memory : Memory} {byteAt? : Int → Option UInt8}
  {region : ListRegion} {phase next : Phase} {cursor last : Cursor}
  {item : ItemType} {head : Entry} {fields entries rest : List Entry}
  {events : List Event} {reason : StopReason}

/-! ## One reason at most -/

namespace Entry

theorem AreFree.append
    (first : AreFree entries)
    (second : AreFree rest) :
    AreFree (entries ++ rest) := by
  intro entry member
  rcases List.mem_append.mp member with early | late
  · exact first entry early
  · exact second entry late

/-- More entries without errors may stand in front. -/
theorem EndWith.append
    {error : Entry}
    (free : AreFree entries)
    (ends : EndWith rest error) :
    EndWith (entries ++ rest) error := by
  obtain ⟨isError, before, rfl, beforeFree⟩ := ends
  exact ⟨isError, entries ++ before, (List.append_assoc ..).symm,
    free.append beforeFree⟩

/-- Nothing follows the error that a listing ends with. -/
theorem EndWith.of_split
    {last error : Entry}
    {before after : List Entry}
    (ends : EndWith entries last)
    (split : entries = before ++ error :: after)
    (isError : error.kind = .error) :
    AreFree before ∧ after = [] := by
  obtain ⟨_, earlier, rfl, free⟩ := ends
  rcases List.append_eq_append_iff.mp split.symm with
    ⟨between, rfl, shape⟩ | ⟨between, rfl, shape⟩
  · cases between with
    | nil =>
        cases shape
        rw [List.append_nil] at free
        exact ⟨free, rfl⟩
    | cons first between =>
        cases shape
        exact absurd isError (free error (by simp))
  · cases between with
    | nil =>
        cases shape
        rw [List.append_nil]
        exact ⟨free, rfl⟩
    | cons first between =>
        simp at shape

theorem find?_of_areFree
    (free : AreFree entries) :
    entries.find? (fun entry => entry.kind == .error) = none := by
  rw [List.find?_eq_none]
  intro entry member
  simpa using free entry member

/-- The error that entries end with is the one that is found. -/
theorem EndWith.find?_eq
    {error : Entry}
    (ends : EndWith entries error) :
    entries.find? (fun entry => entry.kind == .error) = some error := by
  obtain ⟨isError, before, rfl, beforeFree⟩ := ends
  rw [List.find?_append, find?_of_areFree beforeFree, Option.none_or,
    List.find?_cons_of_pos (by simp [isError])]

end Entry

namespace StopReason

/-- The reason that an error names. -/
def ofError (name : String) : StopReason :=
  if name = Entry.unknownPacket then
    .unknown
  else if name = Entry.overflow then
    .overflow
  else if name = Entry.unsupportedMode then
    .unsupported
  else
    .unresolved

/-- The reason that the last item gives where there is no error. -/
def ofLastItem : Option (ItemType × Int) → StopReason
  | some (.packet type, _) =>
      if type.terminal then .terminal else .exhausted
  | some (.form .branch, _) => .branched
  | _ => .exhausted

/-- A list that ends behind no final item is exhausted. -/
theorem ofLastItem_of_not_final
    {last? : Option (ItemType × Int)}
    (notFinal :
      ∀ item high, last? = some (item, high) → ¬item.IsFinal) :
    ofLastItem last? = .exhausted := by
  cases last? with
  | none =>
      rfl
  | some last =>
      obtain ⟨item, high⟩ := last
      have passed := notFinal item high rfl
      cases item with
      | packet type =>
          exact if_neg passed
      | form kind =>
          cases kind with
          | branch =>
              exact absurd rfl passed
          | escape | absolute | absoluteRelative | threeRelative
          | oneRelative =>
              rfl

/-- The reason that a listing tells. -/
def ofEntries
    (byteAt? : Int → Option UInt8)
    (entries : List Entry) : StopReason :=
  match entries.find? fun entry => entry.kind == .error with
  | some error => ofError error.name
  | none => ofLastItem (Entry.lastItem? byteAt? entries)

/-- The listing of a walk tells the reason why it stops. -/
theorem Explains.eq_ofEntries
    (explains : reason.Explains memory byteAt? region entries cursor) :
    reason = ofEntries byteAt? entries := by
  rw [ofEntries]
  cases reason with
  | terminal =>
      obtain ⟨free, type, lastIs, isTerminal⟩ := explains
      rw [Entry.find?_of_areFree free, lastIs]
      simp only [ofLastItem, isTerminal, if_true]
  | branched =>
      obtain ⟨free, lastIs⟩ := explains
      rw [Entry.find?_of_areFree free, lastIs]
      rfl
  | exhausted =>
      obtain ⟨free, notFinal, _⟩ := explains
      rw [Entry.find?_of_areFree free]
      exact (ofLastItem_of_not_final notFinal).symm
  | unknown =>
      obtain ⟨first, _, _, ends⟩ := explains
      rw [ends.find?_eq]
      rfl
  | overflow =>
      obtain ⟨_, _, ends⟩ := explains
      rw [ends.find?_eq]
      rfl
  | unsupported =>
      obtain ⟨_, _, ends⟩ := explains
      rw [ends.find?_eq]
      rfl
  | unresolved =>
      obtain ⟨target, _, ends⟩ := explains
      rw [ends.find?_eq]
      rfl

/-- An error, if there is one, is the only one and comes last. -/
theorem Explains.areFree_or_endWith
    (explains : reason.Explains memory byteAt? region entries cursor) :
    Entry.AreFree entries ∨ ∃ error, Entry.EndWith entries error := by
  cases reason with
  | terminal | branched | exhausted =>
      exact .inl explains.1
  | unknown =>
      obtain ⟨_, _, _, ends⟩ := explains
      exact .inr ⟨_, ends⟩
  | unresolved =>
      obtain ⟨_, _, ends⟩ := explains
      exact .inr ⟨_, ends⟩
  | overflow | unsupported =>
      exact .inr ⟨_, explains.2.2⟩

end StopReason

/-! ## One reason at least -/

namespace Entry

/-- The last item of a listing is that of its last part that has items. -/
theorem lastItem?_append_of_items
    (someItems : rest.filter isItem ≠ [])
    (entries : List Entry) :
    lastItem? byteAt? (entries ++ rest) = lastItem? byteAt? rest := by
  rw [lastItem?, List.filter_append,
    List.getLast?_append_of_ne_nil _ someItems]
  rfl

/-- Entries without items do not change which item is the last. -/
theorem lastItem?_append_of_no_items
    (noItems : rest.filter isItem = [])
    (entries : List Entry) :
    lastItem? byteAt? (entries ++ rest) =
      lastItem? byteAt? entries := by
  rw [lastItem?, List.filter_append, noItems, List.append_nil]
  rfl

/-- The last item is looked for among later entries first. -/
theorem lastItem?_append_of_some
    {found : ItemType × Int}
    (lastIs : lastItem? byteAt? rest = some found)
    (entries : List Entry) :
    lastItem? byteAt? (entries ++ rest) = some found := by
  rw [← lastIs]
  refine lastItem?_append_of_items ?_ entries
  intro noItems
  rw [lastItem?, noItems] at lastIs
  contradiction

end Entry

/-- What can be decoded is the last item of the entries that show it. -/
theorem Walk.ShowsItem.lastItem?_eq
    (shows : ShowsItem cursor phase head fields events)
    (found : itemAt? byteAt? phase cursor.addr = some item) :
    Entry.lastItem? byteAt? (Event.entries events) =
      some (item, cursor.addr + item.size) := by
  rw [Entry.lastItem?, ← Event.items, shows.items_eq,
    List.getLast?_singleton, Option.bind_some]
  simp only [Entry.itemAndEnd?, shows.isHead.addr_eq,
    shows.isHead.item?_eq found, Option.bind_eq_bind, Option.bind_some]
  rfl

namespace ItemType

/-- An item that others follow is not final. -/
theorem not_isFinal_of_follows
    (follows : item.outlook = .follows next) :
    ¬item.IsFinal := by
  cases item with
  | packet type =>
      intro isTerminal
      have terminal : type.terminal = true := isTerminal
      rw [outlook, Walk.outlookAfter, if_pos terminal] at follows
      contradiction
  | form kind =>
      rintro rfl
      contradiction

/-- An item that nothing follows is final. -/
theorem isFinal_of_not_follows
    (ends : ∀ next, item.outlook ≠ .follows next) :
    item.IsFinal := by
  cases item with
  | packet type =>
      by_contra passed
      have notTerminal : ¬type.terminal = true := passed
      rw [outlook, Walk.outlookAfter, if_neg notTerminal] at ends
      split at ends <;> exact ends _ rfl
  | form kind =>
      cases kind with
      | branch =>
          rfl
      | escape | absolute | absoluteRelative | threeRelative
      | oneRelative =>
          exact absurd rfl (ends _)

/-- Forms follow compressed packets and other forms. -/
theorem packet_or_form_of_follows_forms
    (follows : item.outlook = .follows .forms) :
    (∃ type, item = .packet type ∧ type.compressed = true) ∨
      ∃ kind, item = .form kind := by
  cases item with
  | packet type =>
      refine .inl ⟨type, rfl, ?_⟩
      rw [outlook, Walk.outlookAfter] at follows
      split at follows
      · contradiction
      · split at follows
        · assumption
        · contradiction
  | form kind =>
      exact .inr ⟨kind, rfl⟩

end ItemType

section BehindItem

variable {progress : Progress}
  (passed :
    Walk.IsPassed memory byteAt? phase cursor item head fields progress)
  (follows : item.outlook = .follows next)

include passed follows

/--
An item in front is the last one, if forms are due but none is listed yet.
-/
theorem Walk.ListRegion.IsUntouched.behindItem
    (untouched :
      (region.resumedAt next progress.cursor).IsUntouched rest last) :
    Entry.lastItem? byteAt? (Event.entries progress.events ++ rest) =
        some (item, last.addr) ∧
      item.outlook = .follows .forms ∧
      last.primMode =
        (item.format? byteAt? cursor.addr).getD cursor.primMode := by
  obtain ⟨noItems, isForms, addrIs, primModeIs⟩ := untouched
  have nextIs : next = .forms := isForms
  refine
    ⟨?_, nextIs ▸ follows, primModeIs.trans passed.primMode_eq⟩
  rw [Entry.lastItem?_append_of_no_items noItems,
    passed.shows.lastItem?_eq passed.meets.found, addrIs,
    ← passed.addr_eq]
  rfl

/--
What is due behind some entries is due behind an item in front of them, too.
-/
theorem Walk.ListRegion.IsDue.behindItem
    {duePhase : Phase}
    (isDue :
      (region.resumedAt next progress.cursor).IsDue byteAt? rest last
        duePhase) :
    (region.resumedAt phase cursor).IsDue byteAt?
      (Event.entries progress.events ++ rest) last duePhase := by
  cases duePhase with
  | packets =>
      obtain ⟨before, packet, error, rfl, isHead⟩ := isDue
      exact ⟨Event.entries progress.events ++ before, packet, error,
        (List.append_assoc ..).symm, isHead⟩
  | forms =>
      rcases isDue with ⟨dueItem, lastIs, formsFollow⟩ | untouched
      · exact .inl
          ⟨dueItem, Entry.lastItem?_append_of_some lastIs _,
            formsFollow⟩
      · obtain ⟨lastIs, formsFollow, _⟩ :=
          untouched.behindItem passed follows
        exact .inl ⟨item, lastIs, formsFollow⟩

/-- An item that others follow does not end the listing that it begins. -/
theorem Entry.not_isFinal_behindItem
    (notFinal :
      ∀ lastItem high,
        Entry.lastItem? byteAt? rest = some (lastItem, high) →
        ¬lastItem.IsFinal) :
    ∀ lastItem high,
      Entry.lastItem? byteAt? (Event.entries progress.events ++ rest) =
        some (lastItem, high) →
      ¬lastItem.IsFinal := by
  intro lastItem high lastIs
  by_cases noItems : rest.filter Entry.isItem = []
  · rw [Entry.lastItem?_append_of_no_items noItems,
      passed.shows.lastItem?_eq passed.meets.found] at lastIs
    cases lastIs
    exact ItemType.not_isFinal_of_follows follows
  · rw [Entry.lastItem?_append_of_items noItems] at lastIs
    exact notFinal lastItem high lastIs

/--
What explains why a walk stops from a cursor on explains it in front of an item
that was passed, too.
-/
theorem StopReason.Explains.behindItem
    (explains :
      reason.Explains memory byteAt?
        (region.resumedAt next progress.cursor) rest last)
    (stop_eq : last.stop = cursor.stop) :
    reason.Explains memory byteAt? (region.resumedAt phase cursor)
      (Event.entries progress.events ++ rest) last := by
  have free : Entry.AreFree (Event.entries progress.events) :=
    passed.shows.areNoErrors
  cases reason with
  | terminal =>
      obtain ⟨restFree, type, lastIs, isTerminal⟩ := explains
      exact ⟨free.append restFree, type,
        Entry.lastItem?_append_of_some lastIs _, isTerminal⟩
  | branched =>
      obtain ⟨restFree, lastIs⟩ := explains
      exact ⟨free.append restFree, Entry.lastItem?_append_of_some lastIs _⟩
  | exhausted =>
      obtain ⟨restFree, notFinal, ended⟩ := explains
      have fits := passed.meets.fits
      have startIs :
          (region.resumedAt next progress.cursor).start =
            cursor.addr + item.size :=
        passed.addr_eq
      have start : (region.resumedAt phase cursor).start = cursor.addr :=
        rfl
      exact ⟨free.append restFree,
        Entry.not_isFinal_behindItem passed follows notFinal,
        by omega⟩
  | unknown =>
      obtain ⟨first, stored, isUnknown, ends⟩ := explains
      exact ⟨first, stored, isUnknown, ends.append free⟩
  | overflow =>
      obtain ⟨left, ⟨duePhase, due, isDue, found, beyond⟩, ends⟩ := explains
      exact ⟨left,
        ⟨duePhase, due, isDue.behindItem passed follows, found, beyond⟩,
        ends.append free⟩
  | unsupported =>
      obtain ⟨isRefused, place, ends⟩ := explains
      refine ⟨isRefused, .inl ?_, ends.append free⟩
      rcases place with ⟨type, lastIs, isCompressed⟩ | untouched
      · exact ⟨type, Entry.lastItem?_append_of_some lastIs _, isCompressed⟩
      · obtain ⟨lastIs, formsFollow, primModeIs⟩ :=
          untouched.behindItem passed follows
        -- A form would have been refused in that format itself.
        rcases ItemType.packet_or_form_of_follows_forms formsFollow with
          ⟨type, rfl, isCompressed⟩ | ⟨kind, rfl⟩
        · exact ⟨type, lastIs, isCompressed⟩
        · have isTriangles :=
            passed.meets.isSupported passed.meets.phase_eq.symm
          exact absurd (primModeIs.trans isTriangles) isRefused
  | unresolved =>
      obtain ⟨target, missing, ends⟩ := explains
      exact ⟨target, missing, ends.append free⟩

end BehindItem

namespace Walk

/-- The last item of a walk explains why it stops. -/
theorem Finds.explained
    {progress : Progress}
    (finds : Finds memory byteAt? phase cursor progress)
    (ends : ∀ next, progress.outcome ≠ .ok (.follows next))
    (left : (conclude memory progress).outcome = .ok (some last))
    (region : ListRegion) :
    ∃ reason : StopReason,
      reason.Explains memory byteAt? (region.resumedAt phase cursor)
        (Event.entries (conclude memory progress).events) last := by
  obtain ⟨rfl, _⟩ := entries_conclude left
  rw [outcome_conclude] at left
  rw [events_conclude, Event.entries_append]
  have noErrors : Entry.AreFree [] := by
    simp [Entry.AreFree]
  cases finds with
  | nothing ended =>
      refine ⟨.exhausted, noErrors, ?_, (Int.max_eq_left ended).symm⟩
      intro item high lastIs
      contradiction
  | @unknown first stored isUnknown =>
      cases phase with
      | packets =>
          rw [ItemType.ofByte?, Option.map_eq_none_iff] at isUnknown
          have noType := List.find?_eq_none.mp isUnknown
          refine
            ⟨.unknown, first, stored, ?_, rfl, [], rfl, noErrors⟩
          intro type known
          simpa using noType type known
      | forms =>
          contradiction
  | unsupported isForms isRefused =>
      exact ⟨.unsupported, isRefused, .inr ⟨rfl, isForms, rfl, rfl⟩, rfl, [],
        rfl, noErrors⟩
  | @packetOverflow item head isPackets found isHead inside beyond =>
      subst isPackets
      refine
        ⟨.overflow, inside,
          ⟨.packets, item, ⟨[], head, _, rfl, isHead⟩, found, beyond⟩,
          rfl, [head], rfl, ?_⟩
      intro entry member
      obtain rfl := List.mem_singleton.mp member
      exact isHead.kind_ne_error
  | @formOverflow item isForms found inside beyond =>
      subst isForms
      exact ⟨.overflow, inside,
        ⟨.forms, item, .inr ⟨rfl, rfl, rfl, rfl⟩, found, beyond⟩, rfl,
        [], rfl, noErrors⟩
  | @passed item head fields events meets shows =>
      have isFinal : item.IsFinal := by
        refine ItemType.isFinal_of_not_follows fun next follows => ?_
        exact ends next (congrArg Except.ok follows)
      have free : Entry.AreFree (Event.entries events ++ []) := by
        rw [List.append_nil]
        exact shows.areNoErrors
      have lastIs :
          Entry.lastItem? byteAt? (Event.entries events ++ []) =
            some (item, cursor.addr + item.size) := by
        rw [List.append_nil]
        exact shows.lastItem?_eq meets.found
      cases item with
      | packet type =>
          exact ⟨.terminal, free, type, lastIs, isFinal⟩
      | form kind =>
          obtain rfl : kind = .branch := isFinal
          exact ⟨.branched, free, lastIs⟩
  | @unresolved item reference head fields events meets shows refers
      missing =>
      exact ⟨.unresolved, reference.target, missing, rfl,
        Event.entries events, rfl, shows.areNoErrors⟩
  | extended =>
      contradiction

/-- However a run ends, there is a reason for it. -/
theorem Runs.explained
    {progress : Progress}
    (runs : Runs (fun _ => true) memory phase cursor progress)
    (within : cursor.Within)
    (shows : cursor.Shows byteAt?)
    (left : (conclude memory progress).outcome = .ok (some last))
    (region : ListRegion) :
    ∃ reason : StopReason,
      reason.Explains memory byteAt? (region.resumedAt phase cursor)
        (Event.entries (conclude memory progress).events) last := by
  -- What explains the rest of a run explains it in front of each item before.
  induction runs with
  | @last phase cursor ends =>
      refine
        (item_finds memory phase within shows).explained ?_ left region
      intro next follows
      exact Bool.noConfusion (ends next follows)
  | @goesOn phase next cursor progress follows isWanted later
      inductionHypothesis =>
      have moves := item_moves memory phase cursor
      obtain ⟨eventsAre, outcomeIs⟩ :=
        conclude_after memory progress (item memory phase cursor).events
      rw [outcomeIs] at left
      have stop_eq : last.stop = cursor.stop := by
        obtain ⟨rfl, _⟩ := entries_conclude left
        exact later.moves.stop_eq.trans moves.stop_eq
      obtain ⟨reason, explains⟩ :=
        inductionHypothesis (within.of_moves moves)
          (shows.of_moves within moves) left
      obtain ⟨item, head, fields, passed, outlookIs⟩ :=
        (item_finds memory phase within shows).of_follows follows
      rw [eventsAre, Event.entries_append]
      exact ⟨reason, explains.behindItem passed outlookIs stop_eq⟩

/-- A conclusion that succeeds leaves the cursor of the run. -/
theorem eq_some_of_conclude
    {progress : Progress}
    {result : Option Cursor}
    (returned : (conclude memory progress).outcome = .ok result) :
    result = some progress.cursor := by
  rw [outcome_conclude] at returned
  split at returned
  · cases returned
    rfl
  · split at returned
    · cases returned
      rfl
    · contradiction

/-- At its start, a list is all that is left of it. -/
theorem ListRegion.IsStart.resumedAt_eq
    {limit : Int}
    (isStart : region.IsStart limit cursor) :
    region.resumedAt region.phase cursor = region := by
  rw [resumedAt, isStart.addr_eq, isStart.primMode_eq]

/--
Every walk that returns lists one error at most, and as its last entry.  A walk
whose start is in no buffer leaves no cursor, and lists that address only.  Any
other walk goes to the end of its region, or of the buffer it begins in, and
stops for exactly one reason.
-/
theorem list_stops
    {result : Option Cursor}
    (returned : (list memory region).outcome = .ok result) :
    let entries := Event.entries (list memory region).events
    (∀ before error after,
      entries = before ++ error :: after →
      error.kind = .error →
      Entry.AreFree before ∧ after = []) ∧
      (¬memory.Covers region.start ∧
          result = none ∧
          entries =
            [⟨some region.start, Entry.unresolved,
              .integer region.start, .error⟩] ∨
        ∃ limit cursor,
          memory.regionEnd region.start = .ok limit ∧
            result = some cursor ∧
            cursor.stop = min region.stop limit ∧
            ∃! reason : StopReason,
              reason.Explains memory (memory.byteAt? region.start) region
                entries cursor) := by
  intro entries
  by_cases covered : memory.Covers region.start
  · obtain ⟨limit, start, resolved, isStart, shows, same, outcomeIs⟩ :=
      list_of_covers covered
    have entriesAre :
        entries =
          Event.entries
            (conclude memory (run memory region.phase start)).events :=
      same.entries_eq
    have runs := runs_run memory region.phase start
    rw [outcomeIs] at returned
    obtain rfl := eq_some_of_conclude returned
    obtain ⟨reason, explains⟩ :=
      runs.explained isStart.within shows returned region
    rw [← entriesAre, isStart.resumedAt_eq] at explains
    refine ⟨?_, .inr ⟨limit, _, resolved, rfl, ?_, reason, explains, ?_⟩⟩
    · intro before error after split isError
      rcases explains.areFree_or_endWith with free | ⟨last, ends⟩
      · exact absurd isError (free error (by simp [split]))
      · exact ends.of_split split isError
    · rw [runs.moves.stop_eq, isStart.stop_eq]
    · intro other otherExplains
      rw [explains.eq_ofEntries, otherExplains.eq_ofEntries]
  · have listIs := list_of_not_covers covered
    rw [listIs] at returned
    cases returned
    have entriesAre :
        entries =
          [⟨some region.start, Entry.unresolved,
            .integer region.start, .error⟩] := by
      simp only [entries, listIs]
      rfl
    refine ⟨?_, .inl ⟨covered, rfl, entriesAre⟩⟩
    have ends : Entry.EndWith entries _ :=
      ⟨rfl, [], entriesAre, by simp [Entry.AreFree]⟩
    intro before error after split isError
    exact ends.of_split split isError

/-- A buffer with a packet, and compressed data for which no format is set. -/
def formless : Memory :=
  [⟨1, 0x1000, #[1, 48, 0x04], some 0⟩]

/-- A list that is longer than the buffer. -/
def formlessRegion : ListRegion :=
  ⟨0x1000, 0x1010, false, unsetPrimMode, .packets⟩

/-- The walk stops in front of the compressed data, because of its format. -/
theorem list_stops_formless :
    ∃ cursor,
      (list formless formlessRegion).outcome = .ok (some cursor) ∧
        cursor.state = (0x1002, 0x1003, unsetPrimMode) ∧
        StopReason.unsupported.Explains formless
          (formless.byteAt? 0x1000) formlessRegion
          (Event.entries (list formless formlessRegion).events)
          cursor := by
  have state :
      (list formless formlessRegion).outcome.map
          (Option.map Cursor.state) =
        .ok (some (0x1002, 0x1003, unsetPrimMode)) := by
    decide +kernel
  have captured : formless.regionEnd 0x1000 = .ok 0x1003 := by
    decide +kernel
  have told :
      StopReason.ofEntries (formless.byteAt? 0x1000)
          (Event.entries (list formless formlessRegion).events) =
        .unsupported := by
    decide +kernel
  cases returned : (list formless formlessRegion).outcome with
  | error fault =>
      rw [returned] at state
      contradiction
  | ok result =>
      rw [returned] at state
      obtain ⟨_, ⟨missing, _⟩ |
        ⟨_, cursor, _, rfl, _, reason, explains, _⟩⟩ :=
        list_stops returned
      · exact absurd (Memory.covers_of_regionEnd captured) missing
      · have reasonIs : reason = .unsupported :=
          explains.eq_ofEntries.trans told
        exact ⟨cursor, rfl, Option.some.inj (Except.ok.inj state),
          reasonIs ▸ explains⟩

end Walk

end VideoCore
