import VideoCore.Dump
import VideoCore.Proofs.Area.Count
import VideoCore.Proofs.Area.Sweep
import VideoCore.Proofs.Walk.Area

namespace VideoCore

/-!
# Sections of a dump

A dump consists of a summary and of one section per walk.  The sections of a
dump request canonical areas only, so that the registry stays small and a sweep
over it comes to an end by itself.
-/

/-- The heading of an area. -/
def Area.title (area : Area) : String :=
  area.type.name ++ " at 0x" ++ Hexadecimal.padded 8 area.paddr ++ ":"

/-- The events that a dump can produce. -/
inductive Event.OfDump (dump : Dump) : Event → Prop where
  | heading (title : String) :
      OfDump dump (.heading title)
  | separator :
      OfDump dump .separator
  | walk
      {event : Event}
      (regular : event.Regular dump.snapshot.buffers) :
      OfDump dump event
  | hexdump
      (addr : Int)
      (data : Window) :
      OfDump dump (.hexdump (some addr) data)
  | summary
      {event : Event}
      (member : event ∈ dump.registerSummary) :
      OfDump dump event

/-- Requests of a dump are requests for canonical areas. -/
theorem Event.OfDump.canonical
    {dump : Dump}
    {area : Area}
    (ofDump : Event.OfDump dump (.request area)) :
    Area.Canonical dump.snapshot.buffers area := by
  cases ofDump with
  | walk regular =>
      cases regular with
      | request canonical =>
          exact canonical
  | summary member =>
      simp [Dump.registerSummary] at member

/-- Events of a dump request canonical areas only. -/
theorem Event.canonical_of_mem_requests
    {dump : Dump}
    {events : List Event}
    (ofDump : ∀ event ∈ events, event.OfDump dump)
    {area : Area}
    (requested : area ∈ Event.requests events) :
    Area.Canonical dump.snapshot.buffers area :=
  (ofDump _ (Event.mem_requests.mp requested)).canonical

namespace Dump

variable {dump : Dump} {area : Area}

/-! ## Sections of areas -/

/-- Whether events are nothing but dumps of memory from an address on. -/
def AreBytes
    (addr : Int)
    (events : List Event) : Prop :=
  ∀ event ∈ events, ∃ window, event = .hexdump (some addr) window

/-- The dump of the bytes of an area, if it is wanted, can always be given. -/
theorem areaBytes_of_covers
    (covered : dump.snapshot.buffers.Covers area.paddr) :
    ∃ bytes,
      dump.areaBytes area = ⟨bytes, .ok ()⟩ ∧
        AreBytes area.paddr bytes := by
  obtain ⟨limit, resolved, _⟩ := Memory.regionEnd_of_covers covered
  obtain ⟨window, shown, _⟩ :=
    Memory.view_of_regionEnd resolved (some area.stop)
  rw [areaBytes]
  cases dump.hexdumps with
  | false =>
      exact ⟨[], rfl, by simp [AreBytes]⟩
  | true =>
      refine ⟨[.hexdump (some area.paddr) window], ?_, ?_⟩
      · simp only [if_true, shown, Traced.ofExcept_ok_bind]
        rfl
      · intro event member
        exact ⟨window, List.mem_singleton.mp member⟩

/-- What the section of an area is made of. -/
structure IsSection
    (dump : Dump)
    (area : Area)
    (bytes : List Event) : Prop where
  areBytes : AreBytes area.paddr bytes
  events_eq :
    (dump.visit area).events =
      [.separator, .heading area.title] ++
        (Walk.area dump.snapshot.buffers dump.disassembler area).events ++
        bytes
  succeeds :
    ¬area.MeetsExtended dump.snapshot.buffers →
    (dump.visit area).outcome = .ok ()
  refuses :
    area.MeetsExtended dump.snapshot.buffers →
    (dump.visit area).outcome = .error .extendedShaderRecord

/--
The section of a canonical area: its heading, its walk, and its bytes if they
are wanted.
-/
theorem exists_isSection
    (canonical : Area.Canonical dump.snapshot.buffers area) :
    ∃ bytes, dump.IsSection area bytes := by
  have safe := Walk.area_safe canonical dump.disassembler
  by_cases extended : area.MeetsExtended dump.snapshot.buffers
  · have visitIs :
        dump.visit area =
          ⟨[.separator, .heading area.title] ++
              (Walk.area dump.snapshot.buffers dump.disassembler
                area).events,
            .error .extendedShaderRecord⟩ := by
      rw [visit, Traced.emit_bind,
        Traced.bind_of_error (safe.refuses extended)]
      rfl
    exact ⟨[],
      { areBytes := by simp [AreBytes]
        events_eq := by rw [visitIs, List.append_nil]
        succeeds := fun plain => absurd extended plain
        refuses := fun _ => by rw [visitIs] }⟩
  · obtain ⟨cursor, ended⟩ := safe.succeeds extended
    obtain ⟨bytes, bytesAre, areBytes⟩ :=
      areaBytes_of_covers canonical.covers
    have visitIs :
        dump.visit area =
          ⟨[.separator, .heading area.title] ++
              (Walk.area dump.snapshot.buffers dump.disassembler
                area).events ++
              bytes,
            .ok ()⟩ := by
      rw [visit, Traced.emit_bind, Traced.bind_of_ok ended, bytesAre,
        List.append_assoc]
      rfl
    exact ⟨bytes,
      { areBytes := areBytes
        events_eq := by rw [visitIs]
        succeeds := fun _ => by rw [visitIs]
        refuses := fun meets => absurd meets extended }⟩

/-- The section of a canonical area has the events of a dump. -/
theorem visit_ofDump
    (canonical : Area.Canonical dump.snapshot.buffers area) :
    (dump.visit area).Emits (Event.OfDump dump) := by
  obtain ⟨bytes, isSection⟩ := exists_isSection canonical
  have safe := Walk.area_safe canonical dump.disassembler
  intro event member
  rw [isSection.events_eq, List.append_assoc] at member
  simp only [List.cons_append, List.nil_append, List.mem_cons,
    List.mem_append] at member
  rcases member with rfl | rfl | walked | shown
  · exact .separator
  · exact .heading _
  · exact .walk (safe.regular event walked)
  · obtain ⟨window, rfl⟩ := isSection.areBytes event shown
    exact .hexdump _ _

/-- The section of a canonical area has one heading, its title. -/
theorem headings_visit
    (canonical : Area.Canonical dump.snapshot.buffers area) :
    Event.headings (dump.visit area).events = [area.title] := by
  obtain ⟨bytes, isSection⟩ := exists_isSection canonical
  have safe := Walk.area_safe canonical dump.disassembler
  have noHeadings : Event.headings bytes = [] := by
    rw [Event.headings, List.filterMap_eq_nil_iff]
    intro event member
    obtain ⟨window, rfl⟩ := isSection.areBytes event member
    rfl
  rw [isSection.events_eq, Event.headings_append, Event.headings_append,
    noHeadings, Event.Regular.headings_eq_nil safe.regular,
    List.append_nil, List.append_nil]
  rfl

/-- What the section of an area requests is what its walk requests. -/
theorem requests_visit
    (canonical : Area.Canonical dump.snapshot.buffers area) :
    Event.requests (dump.visit area).events =
      Event.requests
        (Walk.area dump.snapshot.buffers dump.disassembler
          area).events := by
  obtain ⟨bytes, isSection⟩ := exists_isSection canonical
  have noRequests : Event.requests bytes = [] := by
    rw [Event.requests, List.filterMap_eq_nil_iff]
    intro event member
    obtain ⟨window, rfl⟩ := isSection.areBytes event member
    rfl
  rw [isSection.events_eq, Event.requests_append, Event.requests_append,
    noRequests, List.append_nil]
  rfl

end Dump

end VideoCore
