import VideoCore.Proofs.Walk.Agreement
import VideoCore.Proofs.Walk.Finding

namespace VideoCore.Walk

/-!
# References that lead nowhere

A walk ends with the first reference to an address in no buffer.  One record
reports it, with the address that is missing; the packet or form that holds the
reference is the last one that is shown, and nothing is requested for it.  The
record stands at the packet, but behind a form: a form is passed before its
reference is looked up (`list_reports_unresolved`).
-/

variable {memory : Memory} {byteAt? : Int → Option UInt8}
  {phase : Phase} {cursor met : Cursor} {item : ItemType}
  {reference : Reference}

/-- What is passed on the way shows no errors. -/
theorem Passes.areNoErrors
    {last : Phase}
    {events : List Event}
    (passes : Passes memory phase cursor events last met)
    (within : cursor.Within)
    (shows : cursor.Shows byteAt?) :
    ∀ entry ∈ Event.entries events, entry.kind ≠ .error := by
  induction passes with
  | refl phase cursor =>
      simp [Event.entries]
  | @cons phase next last cursor met events follows later
      inductionHypothesis =>
      have moves := item_moves memory phase cursor
      have rest :=
        inductionHypothesis (within.of_moves moves)
          (shows.of_moves within moves)
      obtain ⟨item, head, fields, passed, _⟩ :=
        (item_finds memory phase within shows).of_follows follows
      intro entry member
      rw [Event.entries_append] at member
      rcases List.mem_append.mp member with early | late
      · exact passed.shows.areNoErrors entry early
      · exact rest entry late

/-- Decoding stops at an item that refers to an address in no buffer. -/
theorem item_of_missing
    (within : met.Within)
    (shows : met.Shows byteAt?)
    (meets : met.Meets byteAt? phase item)
    (plain : ¬IsExtendedItem phase met)
    (refers :
      item.reference? byteAt? met.addr met.primMode = some reference)
    (missing : ¬memory.Covers reference.target) :
    ∃ head fields events,
      Walk.item memory phase met =
          ⟨events, item.interrupted met,
            .error (.unmapped reference.target)⟩ ∧
        ShowsItem met phase head fields events ∧
        Event.requests events = [] := by
  have finds := item_finds memory phase within shows
  generalize Walk.item memory phase met = progress at finds ⊢
  have fits := meets.fits
  have nonempty := ItemType.size_pos_of_itemAt? meets.found
  cases finds with
  | nothing ended =>
      omega
  | unknown stored isUnknown =>
      have found := meets.found
      rw [itemAt?, stored, Option.bind_some, isUnknown] at found
      contradiction
  | unsupported isForms isRefused =>
      exact absurd (meets.isSupported isForms) isRefused
  | packetOverflow isPackets found isHead left beyond =>
      obtain rfl := Option.some.inj (meets.found.symm.trans found)
      omega
  | formOverflow isForms found left beyond =>
      obtain rfl := Option.some.inj (meets.found.symm.trans found)
      omega
  | passed otherMeets showsItem resolves =>
      obtain rfl :=
        Option.some.inj (meets.found.symm.trans otherMeets.found)
      exact absurd (resolves reference refers) missing
  | unresolved otherMeets showsItem otherRefers otherMissing requests_eq =>
      obtain rfl :=
        Option.some.inj (meets.found.symm.trans otherMeets.found)
      obtain rfl := Option.some.inj (refers.symm.trans otherRefers)
      exact ⟨_, _, _, rfl, showsItem, requests_eq⟩
  | extended extended =>
      exact absurd extended plain

/--
A packet is reported where it stands, and a branch behind its three bytes.
-/
theorem addr_interrupted
    (found : itemAt? byteAt? phase met.addr = some item)
    (refers :
      item.reference? byteAt? met.addr met.primMode = some reference) :
    (phase = .packets → (item.interrupted met).addr = met.addr) ∧
      (phase = .forms → (item.interrupted met).addr = met.addr + 3) := by
  obtain ⟨first, _, selected⟩ := Option.bind_eq_some_iff.mp found
  cases phase with
  | packets =>
      obtain ⟨type, _, rfl⟩ := Option.map_eq_some_iff.mp selected
      exact ⟨fun _ => rfl, by simp⟩
  | forms =>
      cases selected
      generalize IndexForm.ofCode _ = kind at refers
      cases kind with
      | branch =>
          exact ⟨by simp, fun _ => rfl⟩
      | escape | absolute | absoluteRelative | threeRelative
      | oneRelative =>
          contradiction

/--
A walk that comes to a reference to an address in no buffer shows the packet or
form that holds it and ends there, with one record of the missing address, the
only error in the listing.  Nothing is requested for the reference.  The record
is reported at a packet itself, but three bytes behind the start of a branch.
-/
theorem list_reports_unresolved
    {region : ListRegion}
    {start : Cursor}
    {earlier : List Event}
    (starts : region.cursor? memory = .ok start)
    (passes : Passes memory region.phase start earlier phase met)
    (meets : met.Meets (memory.byteAt? region.start) phase item)
    (plain : ¬IsExtendedItem phase met)
    (refers :
      item.reference? (memory.byteAt? region.start) met.addr
        met.primMode = some reference)
    (missing : ¬memory.Covers reference.target) :
    let walk := list memory region
    ∃ head fields reported,
      Event.entries walk.events =
          Event.entries earlier ++ head :: fields ++
            [⟨some reported, Entry.unresolved,
              .integer reference.target, .error⟩] ∧
        head.IsHead phase met.addr ∧
        (∀ field ∈ fields, field.kind = .field) ∧
        (∀ entry ∈ Event.entries earlier, entry.kind ≠ .error) ∧
        (phase = .packets → reported = met.addr) ∧
        (phase = .forms → reported = met.addr + 3) ∧
        Event.requests walk.events = Event.requests earlier ∧
        walk.outcome = .ok (some (item.interrupted met)) := by
  intro walk
  obtain ⟨limit, resolved, isStart, _, outcomeIs⟩ :=
    list_of_cursor? starts
  have same := sameResult_conclude starts
  have shows := isStart.shows resolved starts
  have moves := passes.moves
  obtain ⟨head, fields, events, itemIs, showsItem, noRequests⟩ :=
    item_of_missing (isStart.within.of_moves moves)
      (shows.of_moves isStart.within moves) meets plain refers missing
  have runIs :
      run memory phase met =
        ⟨events, item.interrupted met,
          .error (.unmapped reference.target)⟩ := by
    rw [run, runWhile_of_ends (by simp [itemIs]), itemIs]
  obtain ⟨eventsAre, outcomeAre⟩ :=
    conclude_after memory (run memory phase met) earlier
  rw [← passes.run_eq] at eventsAre outcomeAre
  obtain ⟨atPacket, behindForm⟩ := addr_interrupted meets.found refers
  refine
    ⟨head, fields, (item.interrupted met).addr, ?_, showsItem.isHead,
      showsItem.areFields, passes.areNoErrors isStart.within shows,
      atPacket, behindForm, ?_, ?_⟩
  · rw [same.entries_eq, eventsAre, Event.entries_append,
      events_conclude, runIs, Event.entries_append, showsItem.entries_eq,
      List.append_assoc]
    rfl
  · rw [same.requests_eq, eventsAre, Event.requests_append,
      events_conclude, runIs, Event.requests_append, noRequests]
    exact List.append_nil _
  · rw [show walk.outcome = _ from outcomeIs, outcomeAre,
      outcome_conclude, runIs]
    rfl

/-! ## A branch that leads astray -/

/--
A buffer with a format, and compressed data with a branch out of the buffer.
-/
def astray : Memory :=
  [⟨1, 0x1000, #[56, 0x12, 48, 0x04, 130, 0, 1], some 0⟩]

/-- The list that fills the buffer. -/
def astrayRegion : ListRegion :=
  ⟨0x1000, 0x1007, false, unsetPrimMode, .packets⟩

/-- The start of the list. -/
def astrayStart : Cursor :=
  .atStart 0x1000 0x1007
    ⟨#[56, 0x12, 48, 0x04, 130, 0, 1], 0, 7, by decide, by decide⟩ false
    unsetPrimMode

/-- The position behind the format. -/
def astrayHeader : Cursor :=
  (Walk.item astray .packets astrayStart).cursor

/-- The position behind the packet with compressed data. -/
def astrayIndex : Cursor :=
  (Walk.item astray .packets astrayHeader).cursor

/-- The position of the branch. -/
def astrayBranch : Cursor :=
  (Walk.item astray .forms astrayIndex).cursor

/-- The branch is met behind three items, and its target is in no buffer. -/
theorem astray_meets :
    (∃ earlier,
      Passes astray .packets astrayStart earlier .forms astrayBranch) ∧
      astrayBranch.Meets (astray.byteAt? 0x1000) .forms (.form .branch) ∧
      (ItemType.form .branch).reference? (astray.byteAt? 0x1000)
          astrayBranch.addr astrayBranch.primMode =
        some (.indexData 0x3000) ∧
      ¬astray.Covers 0x3000 := by
  have format :
      (Walk.item astray .packets astrayStart).outcome =
        .ok (.follows .packets) := by
    decide +kernel
  have header :
      (Walk.item astray .packets astrayHeader).outcome =
        .ok (.follows .forms) := by
    decide +kernel
  have index :
      (Walk.item astray .forms astrayIndex).outcome =
        .ok (.follows .forms) := by
    decide +kernel
  have missing : astray.regionEnd 0x3000 = .error (.unmapped 0x3000) := by
    decide +kernel
  have stored :
      astray.byteAt? 0x1000 astrayBranch.addr = some 130 := by
    decide +kernel
  have meets :
      astrayBranch.Meets (astray.byteAt? 0x1000) .forms
        (.form .branch) :=
    { found := by rw [itemAt?, stored]; rfl
      isSupported := by decide +kernel
      fits := by decide +kernel }
  exact ⟨⟨_, .cons format (.cons header (.cons index (.refl .forms _)))⟩,
    meets, by decide +kernel, Memory.not_covers_of_regionEnd missing⟩

/-- The missing address is reported behind the branch. -/
theorem list_reports_unresolved_astray :
    ∃ earlier head fields reported,
      Event.entries (list astray astrayRegion).events =
          Event.entries earlier ++ head :: fields ++
            [⟨some reported, Entry.unresolved, .integer 0x3000,
              .error⟩] ∧
        head.IsHead .forms 0x1004 ∧
        reported = 0x1007 := by
  obtain ⟨⟨earlier, passes⟩, meets, refers, missing⟩ := astray_meets
  have starts : astrayRegion.cursor? astray = .ok astrayStart := by
    rfl
  have place : astrayBranch.addr = 0x1004 := by
    decide +kernel
  obtain ⟨head, fields, reported, entries_eq, isHead, _, _, _,
    behindForm, _⟩ :=
    list_reports_unresolved starts passes meets not_isExtendedItem_forms
      refers missing
  rw [place] at isHead behindForm
  exact ⟨earlier, head, fields, reported, entries_eq, isHead, behindForm rfl⟩

/--
Missing addresses are not always reported at the item that refers to them.
-/
theorem not_forall_reported_at_item :
    ¬∀ (memory : Memory) (region : ListRegion) (start met : Cursor)
        (earlier : List Event) (phase : Phase) (item : ItemType)
        (reference : Reference),
      region.cursor? memory = .ok start →
      Passes memory region.phase start earlier phase met →
      met.Meets (memory.byteAt? region.start) phase item →
      ¬IsExtendedItem phase met →
      item.reference? (memory.byteAt? region.start) met.addr
          met.primMode =
        some reference →
      ¬memory.Covers reference.target →
      ∃ error ∈ Event.entries (list memory region).events,
        error.name = Entry.unresolved ∧ error.addr = some met.addr := by
  intro claimed
  obtain ⟨⟨earlier, passes⟩, meets, refers, missing⟩ := astray_meets
  obtain ⟨error, member, named, reported⟩ :=
    claimed astray astrayRegion astrayStart astrayBranch earlier .forms
      (.form .branch) (.indexData 0x3000) rfl passes meets
      not_isExtendedItem_forms refers missing
  have elsewhere :
      ∀ entry ∈ Event.entries (list astray astrayRegion).events,
        entry.name = Entry.unresolved →
        entry.addr ≠ some astrayBranch.addr := by
    decide +kernel
  exact elsewhere error member named reported

end VideoCore.Walk
