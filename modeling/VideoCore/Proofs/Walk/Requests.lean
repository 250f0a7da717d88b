import VideoCore.Proofs.Walk.Finding

namespace VideoCore

/-!
# What walks request

Nothing but items leads to requests.  What a walk requests can therefore be told
from its packets and forms: an item refers to an area by its bytes and by the
format in force, which is that of the last packet that sets one
(`Walk.list_requests`).
-/

namespace Entry

variable (byteAt? : Int → Option UInt8)

/-- The format that the item of an entry puts in force. -/
def format? (entry : Entry) : Option Int := do
  let addr ← entry.addr
  let item ← entry.item? byteAt?
  item.format? byteAt? addr

/-- The format in force behind some items that begin with `primMode`. -/
def formatAfter
    (primMode : Int)
    (items : List Entry) : Int :=
  ((items.filterMap (format? byteAt?)).getLast?).getD primMode

/--
What the item of an entry refers to while a format is in force; nothing if it
does not fit before `stop`.
-/
def reference?
    (stop primMode : Int)
    (entry : Entry) : Option Reference := do
  let addr ← entry.addr
  let item ← entry.item? byteAt?
  if addr + item.size ≤ stop then
    item.reference? byteAt? addr primMode
  else
    none

/-- What some items behind earlier ones refer to, in order. -/
def references
    (stop primMode : Int)
    (earlier : List Entry) :
    List Entry → List Reference
  | [] => []
  | entry :: rest =>
      (entry.reference? byteAt? stop
          (formatAfter byteAt? primMode earlier)).toList ++
        references stop primMode (earlier ++ [entry]) rest

variable {byteAt?} {phase : Phase} {addr stop primMode : Int}
  {head : Entry} {item : ItemType}

/-- The last entry that sets a format decides. -/
theorem formatAfter_append
    (earlier : List Entry)
    (entry : Entry) :
    formatAfter byteAt? primMode (earlier ++ [entry]) =
      (entry.format? byteAt?).getD
        (formatAfter byteAt? primMode earlier) := by
  rw [formatAfter, List.filterMap_append]
  cases format : entry.format? byteAt? <;>
    simp [formatAfter, format]

namespace IsHead

variable (isHead : head.IsHead phase addr)
  (found : itemAt? byteAt? phase addr = some item)

include isHead found

/-- The head of an item sets the format that the item sets. -/
theorem format?_eq :
    head.format? byteAt? = item.format? byteAt? addr := by
  simp only [format?, isHead.addr_eq, isHead.item?_eq found,
    Option.bind_eq_bind, Option.bind_some]

/-- The head of an item refers to what the item refers to, if it fits. -/
theorem reference?_eq :
    head.reference? byteAt? stop primMode =
      if addr + item.size ≤ stop then
        item.reference? byteAt? addr primMode
      else
        none := by
  simp only [reference?, isHead.addr_eq, isHead.item?_eq found,
    Option.bind_eq_bind, Option.bind_some]

end IsHead

end Entry

namespace Event

/-- The packets and forms among some events. -/
def items (events : List Event) : List Entry :=
  (entries events).filter Entry.isItem

theorem items_append
    (first second : List Event) :
    items (first ++ second) = items first ++ items second := by
  rw [items, entries_append, List.filter_append]
  rfl

end Event

namespace Walk

/--
Whether events request what their items refer to behind earlier ones, and show
forms in the triangles format only.
-/
structure Accounts
    (memory : Memory)
    (byteAt? : Int → Option UInt8)
    (stop primMode : Int)
    (earlier : List Entry)
    (events : List Event) : Prop where
  requests_eq :
    Event.requests events =
      (Entry.references byteAt? stop primMode earlier
        (Event.items events)).filterMap (Reference.area? memory)
  areTriangles :
    ∀ before form after,
      Event.items events = before ++ form :: after →
      form.kind = .compressed →
      Entry.formatAfter byteAt? primMode (earlier ++ before) =
        trianglesPrimMode

variable {memory : Memory} {byteAt? : Int → Option UInt8}
  {phase : Phase} {cursor : Cursor} {stop primMode : Int}
  {earlier : List Entry} {head : Entry} {events later : List Event}

/-- Events without items and requests need no account. -/
theorem Accounts.of_no_items
    (noItems : Event.items events = [])
    (noRequests : Event.requests events = []) :
    Accounts memory byteAt? stop primMode earlier events where
  requests_eq := by
    rw [noItems, noRequests]
    rfl
  areTriangles := by
    intro before form after split
    rw [noItems] at split
    simp at split

/-- One more item is accounted for in front of others. -/
theorem Accounts.cons
    (accounts :
      Accounts memory byteAt? stop primMode (earlier ++ [head]) later)
    (items_eq : Event.items events = [head])
    (requests_eq :
      Event.requests events =
        ((head.reference? byteAt? stop
          (Entry.formatAfter byteAt? primMode earlier)).bind
            (Reference.area? memory)).toList)
    (isTriangles :
      head.kind = .compressed →
      Entry.formatAfter byteAt? primMode earlier = trianglesPrimMode) :
    Accounts memory byteAt? stop primMode earlier (events ++ later) where
  requests_eq := by
    rw [Event.requests_append, Event.items_append, items_eq, requests_eq,
      accounts.requests_eq, List.singleton_append, Entry.references,
      List.filterMap_append]
    cases head.reference? byteAt? stop _ with
    | none =>
        rfl
    | some reference =>
        rw [Option.bind_some, Option.toList_some,
          List.filterMap_cons]
        cases reference.area? memory <;> rfl
  areTriangles := by
    intro before form after split isForm
    rw [Event.items_append, items_eq, List.singleton_append] at split
    cases before with
    | nil =>
        cases split
        rw [List.append_nil]
        exact isTriangles isForm
    | cons first before =>
        rw [List.cons_append, List.cons.injEq] at split
        obtain ⟨rfl, split⟩ := split
        have isTriangles :=
          accounts.areTriangles before form after split isForm
        rwa [List.append_assoc] at isTriangles

/-- An item is the only one among the events that show it. -/
theorem ShowsItem.items_eq
    {fields : List Entry}
    (shows : ShowsItem cursor phase head fields events) :
    Event.items events = [head] := by
  have noItems : fields.filter Entry.isItem = [] := by
    rw [List.filter_eq_nil_iff]
    intro field member
    simp [Entry.isItem, shows.areFields field member]
  rw [Event.items, shows.entries_eq,
    List.filter_cons_of_pos shows.isHead.isItem_eq_true, noItems]

/-- An item that can be decoded is accounted for by the area it refers to. -/
theorem Accounts.item
    {item : ItemType}
    {fields : List Entry}
    (accounts :
      Accounts memory byteAt? cursor.stop primMode (earlier ++ [head])
        later)
    (meets : cursor.Meets byteAt? phase item)
    (shows : ShowsItem cursor phase head fields events)
    (mode :
      cursor.primMode = Entry.formatAfter byteAt? primMode earlier)
    (requests_eq :
      Event.requests events =
        ((item.reference? byteAt? cursor.addr cursor.primMode).bind
          (Reference.area? memory)).toList) :
    Accounts memory byteAt? cursor.stop primMode earlier
      (events ++ later) := by
  refine accounts.cons shows.items_eq ?_ ?_
  · rw [requests_eq, shows.isHead.reference?_eq meets.found,
      if_pos meets.fits, mode]
  · intro isForm
    rw [← mode]
    exact meets.isSupported (shows.isHead.eq_forms isForm)

/--
The last item of a walk is accounted for, unless it is refused altogether.
-/
theorem Finds.accounts
    {progress : Progress}
    (finds : Finds memory byteAt? phase cursor progress)
    (mode :
      cursor.primMode = Entry.formatAfter byteAt? primMode earlier)
    (plain : progress.outcome ≠ .error .extendedShaderRecord) :
    Accounts memory byteAt? cursor.stop primMode earlier
      progress.events := by
  have nothing :
      ∀ head : Entry,
        Accounts memory byteAt? cursor.stop primMode (earlier ++ [head])
          [] :=
    fun _ => .of_no_items rfl rfl
  cases finds with
  | nothing | unknown | unsupported | formOverflow =>
      exact .of_no_items rfl rfl
  | @packetOverflow item head isPackets found isHead left beyond =>
      have items :
          Event.items [.entry head, overflowEvent cursor] = [head] :=
        List.filter_cons_of_pos isHead.isItem_eq_true
      refine (nothing head).cons items ?_ ?_
      · rw [isHead.reference?_eq found, if_neg (Int.not_le.mpr beyond)]
        rfl
      · intro isForm
        rw [isHead.eq_forms isForm] at isPackets
        contradiction
  | @passed item head fields events meets shows resolves requests_eq =>
      rw [← List.append_nil events]
      exact (nothing head).item meets shows mode requests_eq
  | @unresolved item reference head fields events meets shows refers missing
      requests_eq =>
      rw [← List.append_nil events]
      refine (nothing head).item meets shows mode ?_
      rcases reference.resolve_cases memory with
        ⟨covered, _⟩ | ⟨_, _, noArea⟩
      · exact absurd covered missing
      · rw [requests_eq, refers, Option.bind_some, noArea]
        rfl
  | extended =>
      exact absurd rfl plain

/-- A run accounts for all that it asks for. -/
theorem Runs.accounts
    {progress : Progress}
    (runs : Runs (fun _ => true) memory phase cursor progress)
    (within : cursor.Within)
    (shows : cursor.Shows byteAt?)
    (mode :
      cursor.primMode = Entry.formatAfter byteAt? primMode earlier)
    (plain : progress.outcome ≠ .error .extendedShaderRecord) :
    Accounts memory byteAt? cursor.stop primMode earlier
      progress.events := by
  -- The format in force at a cursor is that after the items before it.
  induction runs generalizing earlier with
  | @last phase cursor ends =>
      exact (item_finds memory phase within shows).accounts mode plain
  | @goesOn phase next cursor progress follows isWanted later
      inductionHypothesis =>
      have moves := item_moves memory phase cursor
      have rest :
          ∀ earlier,
            (item memory phase cursor).cursor.primMode =
              Entry.formatAfter byteAt? primMode earlier →
            Accounts memory byteAt?
              (item memory phase cursor).cursor.stop primMode earlier
              progress.events :=
        fun _ nextMode =>
          inductionHypothesis (within.of_moves moves)
            (shows.of_moves within moves) nextMode plain
      obtain ⟨item, head, fields, passed, _⟩ :=
        (item_finds memory phase within shows).of_follows follows
      rw [moves.stop_eq] at rest
      refine
        (rest _ ?_).item passed.meets passed.shows mode
          passed.requests_eq
      rw [passed.primMode_eq, Entry.formatAfter_append,
        passed.shows.isHead.format?_eq passed.meets.found, mode]

/--
The report of an unresolved reference shows no items and requests nothing.
-/
theorem items_conclude
    (memory : Memory)
    (progress : Progress) :
    Event.items (conclude memory progress).events =
        Event.items progress.events ∧
      Event.requests (conclude memory progress).events =
        Event.requests progress.events := by
  have nothing :
      Event.items (closing memory progress) = [] ∧
        Event.requests (closing memory progress) = [] := by
    unfold closing
    split
    · exact ⟨rfl, rfl⟩
    · split <;> exact ⟨rfl, rfl⟩
  constructor
  · rw [events_conclude, Event.items_append, nothing.1, List.append_nil]
  · rw [events_conclude, Event.requests_append, nothing.2,
      List.append_nil]

/--
A walk that ends requests exactly what its packets and forms refer to, in their
order, as far as they fit and lead into a buffer.  A packet or form is read with
the format that the last packet before it has set, or with that of the list; and
forms are shown while the triangles format is in force only.
-/
theorem list_requests
    {region : ListRegion}
    {result : Option Cursor}
    (ended : (list memory region).outcome = .ok result) :
    let byteAt? := memory.byteAt? region.start
    let walk := list memory region
    let items := Event.items walk.events
    ∃ stop,
      (∀ limit,
        memory.regionEnd region.start = .ok limit →
        stop = min region.stop limit) ∧
      Event.requests walk.events =
        (Entry.references byteAt? stop region.primMode []
          items).filterMap (Reference.area? memory) ∧
      ∀ before form after,
        items = before ++ form :: after →
        form.kind = .compressed →
        Entry.formatAfter byteAt? region.primMode before =
          trianglesPrimMode := by
  intro byteAt? walk items
  by_cases covered : memory.Covers region.start
  · obtain ⟨limit, start, resolved, isStart, shows, same, outcomeIs⟩ :=
      list_of_covers covered
    have plain :
        (run memory region.phase start).outcome ≠
          .error .extendedShaderRecord := by
      intro extended
      rw [outcomeIs, outcome_conclude, extended] at ended
      contradiction
    have accounts :
        Accounts memory byteAt? start.stop region.primMode []
          (run memory region.phase start).events :=
      (runs_run memory region.phase start).accounts isStart.within shows
        isStart.primMode_eq plain
    obtain ⟨sameItems, sameRequests⟩ :=
      items_conclude memory (run memory region.phase start)
    have itemsAre :
        items = Event.items (run memory region.phase start).events :=
      (congrArg (List.filter Entry.isItem) same.entries_eq).trans
        sameItems
    have requestsAre :
        Event.requests walk.events =
          Event.requests (run memory region.phase start).events :=
      same.requests_eq.trans sameRequests
    refine ⟨min region.stop limit, ?_, ?_, ?_⟩
    · intro other otherResolved
      rw [Except.ok.inj (resolved.symm.trans otherResolved)]
    · rw [requestsAre, itemsAre, accounts.requests_eq, isStart.stop_eq]
    · rw [itemsAre]
      exact accounts.areTriangles
  · have missing := Memory.regionEnd_of_not_covers covered
    have walkIs := list_of_not_covers covered
    have noItems : items = [] := by
      simp only [items, walk, walkIs]
      rfl
    refine ⟨region.start, by simp [missing], ?_, by simp [noItems]⟩
    rw [noItems, show walk = _ from walkIs]
    rfl

/--
A list that sets a format, calls a list, uses a shader record, and goes on with
compressed data elsewhere; and a buffer that these references lead to.
-/
def referring : Memory :=
  [⟨1, 0x1000,
      #[56, 0x12, 17, 0x00, 0x20, 0, 0, 64, 0x23, 0x20, 0, 0, 48, 0x04,
        130, 0x80, 0], some 0⟩,
    ⟨2, 0x2000, #[0, 0, 0, 0, 0, 0, 0, 0, 0, 0, 0, 0, 0, 0, 0, 0,
      0, 0, 0, 0, 0, 0, 0, 0, 0, 0, 0, 0, 0, 0, 0, 0, 0], some 1⟩]

/-- The list that fills the first buffer. -/
def referringRegion : ListRegion :=
  ⟨0x1000, 0x1011, false, unsetPrimMode, .packets⟩

/-- The lists begin with the format, and the record has three attributes. -/
theorem list_requests_referring :
    ∃ cursor,
      (list referring referringRegion).outcome = .ok (some cursor) ∧
        ∃ stop,
          stop = min 0x1011 0x1011 ∧
          Event.requests (list referring referringRegion).events =
            (Entry.references (referring.byteAt? 0x1000) stop
              unsetPrimMode []
              (Event.items
                (list referring referringRegion).events)).filterMap
              (Reference.area? referring) ∧
          Event.requests (list referring referringRegion).events =
            [⟨.subList, 0x2000, 33, 0x12, 0, false⟩,
              ⟨.shaderRecord, 0x2020, 60, unsetPrimMode, 3, false⟩,
              ⟨.compressedList, 0x2000, 33, 0x12, 0, false⟩] := by
  have state :
      (list referring referringRegion).outcome.map
          (Option.map Cursor.state) =
        .ok (some (0x1011, 0x1011, 0x12)) := by
    decide +kernel
  have limit : referring.regionEnd 0x1000 = .ok 0x1011 := by
    decide +kernel
  cases ended : (list referring referringRegion).outcome with
  | error fault =>
      rw [ended] at state
      contradiction
  | ok cursor? =>
      rw [ended] at state
      cases cursor? with
      | none =>
          contradiction
      | some cursor =>
          obtain ⟨stop, stopIs, requests_eq, _⟩ := list_requests ended
          exact ⟨cursor, rfl, stop, stopIs _ limit, requests_eq,
            by decide +kernel⟩

end Walk

end VideoCore
