import VideoCore.Report.Unresolved

namespace VideoCore

/-!
# Laws of decoding runs

What a run that is put together from parts does, in terms of its parts: its
events are theirs in order, and the first fault is its outcome.  A property of
all events of a run is therefore a property of all events of its parts.
-/

namespace Traced

variable {α β : Type}

@[simp] theorem events_pure
    (value : α) :
    (Pure.pure value : Traced α).events = [] :=
  rfl

@[simp] theorem outcome_pure
    (value : α) :
    (Pure.pure value : Traced α).outcome = .ok value :=
  rfl

/-- A run goes on after a part that succeeds. -/
theorem bind_of_ok
    {run : Traced α}
    {value : α}
    (succeeds : run.outcome = .ok value)
    (next : α → Traced β) :
    run >>= next =
      ⟨run.events ++ (next value).events,
        (next value).outcome⟩ := by
  change Traced.bind run next = _
  simp only [Traced.bind, succeeds]

/-- A run ends with a part that fails. -/
theorem bind_of_error
    {run : Traced α}
    {fault : Fault}
    (fails : run.outcome = .error fault)
    (next : α → Traced β) :
    run >>= next = ⟨run.events, .error fault⟩ := by
  change Traced.bind run next = _
  simp only [Traced.bind, fails]

@[simp] theorem emit_bind
    (events : List Event)
    (next : Unit → Traced β) :
    emit events >>= next =
      ⟨events ++ (next ()).events, (next ()).outcome⟩ :=
  bind_of_ok rfl next

@[simp] theorem ofExcept_ok_bind
    (value : α)
    (next : α → Traced β) :
    ofExcept (.ok value) >>= next = next value :=
  bind_of_ok rfl next

@[simp] theorem ofExcept_error_bind
    (fault : Fault)
    (next : α → Traced β) :
    (ofExcept (.error fault) : Traced α) >>= next =
      ⟨[], .error fault⟩ :=
  bind_of_error rfl next

/-! ## Properties of all events -/

/-- Whether every event of a run has a property. -/
def Emits
    (allowed : Event → Prop)
    (run : Traced α) : Prop :=
  ∀ event ∈ run.events, allowed event

namespace Emits

variable {allowed : Event → Prop}

theorem ofOutcome
    (outcome : Except Fault α) :
    Emits allowed (ofExcept outcome) := by
  intro event member
  exact absurd member List.not_mem_nil

theorem ofPure
    (value : α) :
    Emits allowed (Pure.pure value : Traced α) := by
  intro event member
  exact absurd member List.not_mem_nil

/-- A run has a property of all events if its parts have it. -/
theorem bind
    {run : Traced α}
    {next : α → Traced β}
    (first : run.Emits allowed)
    (later :
      ∀ value,
        run.outcome = .ok value →
        (next value).Emits allowed) :
    (run >>= next).Emits allowed := by
  cases ended : run.outcome with
  | error fault =>
      rw [bind_of_error ended]
      exact first
  | ok value =>
      rw [bind_of_ok ended]
      intro event member
      rcases List.mem_append.mp member with early | late
      · exact first event early
      · exact later value ended event late

/-- Reporting an uncaptured address adds the report at most. -/
theorem reportingUncaptured
    {memory : Memory}
    {addr : Int}
    {fallback : α}
    {run : Traced α}
    (emits : run.Emits allowed)
    (reported :
      ∀ fault, ∀ event ∈ memory.unresolved addr fault, allowed event) :
    (Traced.reportingUncaptured memory addr fallback run).Emits allowed := by
  unfold Traced.reportingUncaptured
  split
  · exact emits
  · next fault _ =>
      split
      · intro event member
        rcases List.mem_append.mp member with early | late
        · exact emits event early
        · exact reported fault event late
      · exact emits

end Emits

/-! ## Reporting uncaptured addresses -/

/-- A run that succeeds has nothing to report. -/
theorem reportingUncaptured_of_ok
    {memory : Memory}
    {addr : Int}
    {fallback value : α}
    {run : Traced α}
    (succeeds : run.outcome = .ok value) :
    reportingUncaptured memory addr fallback run = run := by
  simp only [reportingUncaptured, succeeds]

/-- An uncaptured address is reported, and the fallback is the result. -/
theorem reportingUncaptured_of_unmapped
    {memory : Memory}
    {addr missing : Int}
    {fallback : α}
    {run : Traced α}
    (fails : run.outcome = .error (.unmapped missing)) :
    reportingUncaptured memory addr fallback run =
      ⟨run.events ++ memory.unresolved addr (.unmapped missing),
        .ok fallback⟩ := by
  simp [reportingUncaptured, fails, Fault.isUncaptured]

end Traced

/-! ## Entries, requests and headings -/

namespace Event

@[simp] theorem entries_append
    (first second : List Event) :
    entries (first ++ second) =
      entries first ++ entries second :=
  List.filterMap_append

@[simp] theorem requests_append
    (first second : List Event) :
    requests (first ++ second) =
      requests first ++ requests second :=
  List.filterMap_append

@[simp] theorem entries_map_entry
    (found : List Entry) :
    entries (found.map .entry) = found := by
  rw [entries, List.filterMap_map]
  exact List.filterMap_some

@[simp] theorem entries_map_request
    (areas : List Area) :
    entries (areas.map .request) = [] := by
  rw [entries, List.filterMap_map, List.filterMap_eq_nil_iff]
  exact fun _ _ => rfl

@[simp] theorem requests_map_entry
    (found : List Entry) :
    requests (found.map .entry) = [] := by
  rw [requests, List.filterMap_map, List.filterMap_eq_nil_iff]
  exact fun _ _ => rfl

@[simp] theorem requests_map_request
    (areas : List Area) :
    requests (areas.map .request) = areas := by
  rw [requests, List.filterMap_map]
  exact List.filterMap_some

@[simp] theorem headings_append
    (first second : List Event) :
    headings (first ++ second) =
      headings first ++ headings second :=
  List.filterMap_append

theorem mem_requests
    {events : List Event}
    {area : Area} :
    area ∈ requests events ↔ .request area ∈ events := by
  unfold requests
  rw [List.mem_filterMap]
  constructor
  · rintro ⟨event, member, found⟩
    cases event <;> simp_all
  · intro member
    exact ⟨.request area, member, rfl⟩

/-- The requests of several parts are requested part by part. -/
theorem requests_flatMap
    {β : Type}
    (items : List β)
    (events : β → List Event) :
    requests (items.flatMap events) =
      items.flatMap fun item => requests (events item) := by
  unfold requests
  exact List.filterMap_flatMap

end Event

end VideoCore
