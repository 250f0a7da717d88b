import VideoCore.Proofs.Dump.Run
import VideoCore.Proofs.Shader.Extent
import VideoCore.Session

namespace VideoCore

/-!
# Registries of sessions

Whatever is asked for in a session, in whatever order, also if it fails: the
registry holds well-formed areas only, and no two that agree in type, address,
format and number of attributes.
-/

namespace Area

/-- Whether an area extends to the end of the buffer it begins in. -/
def ExtendsToEnd
    (memory : Memory)
    (area : Area) : Prop :=
  memory.regionEnd area.paddr = .ok area.stop

/-- Whether an area of some type has the shape that areas of this type have. -/
def IsWellFormed
    (memory : Memory)
    (area : Area) : Prop :=
  memory.Covers area.paddr ∧
    match area.type with
    | .subList =>
        area.ExtendsToEnd memory ∧
          0 ≤ area.primMode ∧ area.primMode ≤ 255 ∧
          area.attributes = 0 ∧ area.extended = false
    | .compressedList =>
        area.ExtendsToEnd memory ∧
          area.primMode = 0x12 ∧
          32 ∣ area.paddr ∧ 0 ≤ area.paddr ∧ area.paddr < 2 ^ 32 ∧
          area.attributes = 0 ∧ area.extended = false
    | .shaderRecord =>
        16 ∣ area.paddr ∧
          1 ≤ area.attributes ∧ area.attributes ≤ 8 ∧
          area.size = 36 + 8 * area.attributes ∧
          area.extended = false ∧ area.primMode = unsetPrimMode
    | _ =>
        8 ∣ area.size ∧
          (∃ limit,
            memory.regionEnd area.paddr = .ok limit ∧
              area.paddr + area.size ≤ limit) ∧
          area.primMode = unsetPrimMode

variable {memory : Memory} {area : Area}

/-- Canonical areas are well-formed. -/
theorem Canonical.isWellFormed
    (canonical : Canonical memory area) :
    area.IsWellFormed memory := by
  refine ⟨canonical.covers, ?_⟩
  cases canonical with
  | @subList paddr limit primMode resolved lower upper =>
      have toEnd : paddr + (limit - paddr) = limit := by omega
      refine ⟨?_, lower, upper, rfl, rfl⟩
      rw [ExtendsToEnd, stop, toEnd]
      exact resolved
  | @compressedList paddr limit resolved aligned lower upper =>
      have toEnd : paddr + (limit - paddr) = limit := by omega
      refine ⟨?_, rfl, aligned, lower, upper, rfl, rfl⟩
      rw [ExtendsToEnd, stop, toEnd]
      exact resolved
  | shaderRecord resolved aligned lower upper =>
      refine ⟨aligned, lower, upper, ?_, rfl, rfl⟩
      simp only [shaderRecordSize, shaderAttributeSize]
      omega
  | @program type paddr code isCode shown =>
      obtain ⟨limit, resolved, below⟩ :=
        Memory.regionEnd_of_covers (Memory.covers_of_view shown)
      obtain ⟨window, windowShown, size⟩ :=
        Memory.view_of_regionEnd resolved none
      obtain rfl : code = window :=
        Except.ok.inj (shown.symm.trans windowShown)
      obtain ⟨whole, inside⟩ := Shader.extent_size code
      rw [Option.getD_none, Int.min_self] at size
      have fits : paddr + (Shader.extent code).size ≤ limit := by omega
      cases type with
      | coordinateShader | vertexShader | fragmentShader =>
          exact ⟨Int.natCast_dvd_natCast.mpr whole, ⟨limit, resolved, fits⟩,
            rfl⟩
      | shaderRecord | subList | compressedList =>
          contradiction

end Area

/-! ## Walks over registered lists -/

/--
Whether the walk over a list area begins in its region and goes on to its end:
nothing is said about its end or its start, and compressed data is not refused.
-/
def Area.IsWalkedWhole
    (memory : Memory)
    (area : Area)
    (phase : Phase) : Prop :=
  ∃ cursor,
    (Walk.listRegion area phase).cursor? memory = .ok cursor ∧
      cursor.stop = area.stop ∧
      (∀ text,
        Walk.area memory text area =
          Walk.conclude memory (Walk.run memory phase cursor)) ∧
      (phase = .forms →
        ∀ text found,
          (Walk.area memory text area).events.head? = some (.entry found) →
          found.name ≠ Entry.unsupportedMode)

/-- Compressed data whose format is the right one is not refused. -/
theorem Walk.head?_conclude_run
    {memory : Memory}
    {cursor : Cursor}
    (within : cursor.Within)
    (isTriangles : cursor.primMode = trianglesPrimMode)
    (left : cursor.addr < cursor.stop)
    {found : Entry}
    (isFirst :
      (conclude memory (run memory .forms cursor)).events.head? =
        some (.entry found)) :
    found.name ≠ Entry.unsupportedMode := by
  have itemIs : item memory .forms cursor = form memory cursor := by
    simp only [item, isTriangles, ne_eq, not_true_eq_false, if_false,
      left, if_true]
  obtain ⟨first, rest, eventsAre, named⟩ := form_events within left
  obtain ⟨later, split⟩ :=
    (prefix_run memory .forms cursor).trans
      (prefix_conclude memory (run memory .forms cursor))
  rw [itemIs, eventsAre] at split
  rw [← split] at isFirst
  cases isFirst
  exact named

/-- Canonical list areas are walked as a whole. -/
theorem Area.Canonical.isWalkedWhole
    {memory : Memory}
    {area : Area}
    (canonical : Canonical memory area)
    {phase : Phase}
    (isList : area.phase? = some phase) :
    area.IsWalkedWhole memory phase := by
  obtain ⟨_, wellFormed⟩ := canonical.isWellFormed
  cases typeIs : area.type with
  | subList =>
      simp only [typeIs] at wellFormed
      simp only [phase?, typeIs, Option.some.injEq] at isList
      subst isList
      obtain ⟨cursor, cursorIs, isStart, listIs⟩ :=
        Walk.list_eq_conclude (Walk.listRegion area .packets)
          wellFormed.1
      refine ⟨cursor, cursorIs, isStart.stop_eq.trans (Int.min_self _),
        fun text => ?_, fun isForms => by contradiction⟩
      simp only [Walk.area, typeIs]
      exact listIs
  | compressedList =>
      simp only [typeIs] at wellFormed
      simp only [phase?, typeIs, Option.some.injEq] at isList
      subst isList
      obtain ⟨toEnd, isTriangles, _⟩ := wellFormed
      obtain ⟨cursor, cursorIs, isStart, listIs⟩ :=
        Walk.list_eq_conclude (Walk.listRegion area .forms) toEnd
      have stopIs := isStart.stop_eq.trans (Int.min_self _)
      have walkIs (text : Shader.Disassembler) :
          Walk.area memory text area =
            Walk.conclude memory (Walk.run memory .forms cursor) := by
        simp only [Walk.area, typeIs]
        exact listIs
      have left : cursor.addr < cursor.stop := by
        rw [isStart.addr_eq, stopIs]
        exact Memory.lt_of_regionEnd toEnd
      refine ⟨cursor, cursorIs, stopIs, walkIs, ?_⟩
      intro _ text found isFirst
      rw [walkIs] at isFirst
      exact Walk.head?_conclude_run isStart.within
        (isStart.primMode_eq.trans isTriangles) left isFirst
  | shaderRecord | coordinateShader | vertexShader | fragmentShader =>
      simp [phase?, typeIs] at isList

/-! ## Sessions -/

namespace Session

theorem registry_start
    (dump : Dump) :
    (start dump).registry = [] := by
  rw [start, after, Dump.opening]
  split <;> rfl

/-- The run of a session at its start is a run without known areas. -/
theorem runOf_start
    (dump : Dump)
    (parts : DumpParts) :
    (start dump).runOf (.everything parts) = dump.run [] parts := by
  rw [runOf, registry_start]
  rfl

/--
Whether the registry of a session holds canonical areas only, each of them once.
-/
def IsValid (session : Session) : Prop :=
  session.registry.IsValid session.dump.snapshot.buffers

/-- The events of a dump leave a valid session valid. -/
theorem IsValid.after
    {session : Session}
    (valid : session.IsValid)
    {events : List Event}
    (ofDump : ∀ event ∈ events, event.OfDump session.dump) :
    (session.after events).IsValid :=
  valid.addAll fun _ requested =>
    Event.canonical_of_mem_requests ofDump requested

/-- A session starts with a valid registry. -/
theorem isValid_start
    (dump : Dump) :
    (start dump).IsValid := by
  have blankValid : (blank dump).IsValid := Registry.IsValid.nil
  exact blankValid.after dump.opening_ofDump

/-- The run that a command leads to has the events of a dump. -/
theorem runOf_ofDump
    {session : Session}
    (valid : session.IsValid)
    (command : SessionCommand) :
    (session.runOf command).Emits (Event.OfDump session.dump) := by
  cases command with
  | registerSummary =>
      exact fun event member => .summary member
  | controlLists =>
      exact session.dump.controlLists_ofDump
  | areas =>
      exact Dump.areas_ofDump valid
  | everything parts =>
      exact Dump.run_ofDump valid parts

/-- A command leaves a valid session valid, also if it fails. -/
theorem isValid_perform
    {session : Session}
    (valid : session.IsValid)
    (command : SessionCommand) :
    (session.perform command).1.IsValid :=
  valid.after (runOf_ofDump valid command)

/-- The session after some commands, whether they succeed or not. -/
def performAll
    (session : Session)
    (commands : List SessionCommand) : Session :=
  commands.foldl (fun current command => (current.perform command).1)
    session

/-- Commands in any order keep the registry valid and the snapshot as it is. -/
theorem performAll_spec
    {session : Session}
    (valid : session.IsValid)
    (commands : List SessionCommand) :
    (session.performAll commands).IsValid ∧
      (session.performAll commands).dump = session.dump := by
  induction commands generalizing session with
  | nil =>
      exact ⟨valid, rfl⟩
  | cons command rest inductionHypothesis =>
      exact inductionHypothesis (isValid_perform valid command)

/--
In every session, whatever has been asked for, all registered areas are
well-formed, no two of them agree in type, address, format and number of
attributes, and all lists among them can be walked as a whole.
-/
theorem registry_isWellFormed
    (dump : Dump)
    (commands : List SessionCommand) :
    (∀ area ∈ ((start dump).performAll commands).registry,
      area.IsWellFormed dump.snapshot.buffers) ∧
      (((start dump).performAll commands).registry.map
        Area.key).Nodup ∧
      (∀ area ∈ ((start dump).performAll commands).registry,
        ∀ phase,
          area.phase? = some phase →
          area.IsWalkedWhole dump.snapshot.buffers phase) := by
  obtain ⟨sessionValid, sameDump⟩ :=
    performAll_spec (isValid_start dump) commands
  have valid :
      Registry.IsValid dump.snapshot.buffers
        ((start dump).performAll commands).registry := by
    rw [IsValid, sameDump] at sessionValid
    exact sessionValid
  refine ⟨?_, valid.nodup_map_key, ?_⟩
  · intro area member
    exact (valid.canonical area member).isWellFormed
  · intro area member phase isList
    exact (valid.canonical area member).isWalkedWhole isList

end Session

end VideoCore
