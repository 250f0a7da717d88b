import VideoCore.Proofs.Walk.Item
import VideoCore.Walk.Run

namespace VideoCore.Walk

/-!
# What a run can do

A run decodes items as long as one follows that is wanted.  What every item can
do therefore tells what a run can do: it produces regular events, stays in its
region, and fails only for references.
-/

/-- The progress of a run, item by item. -/
inductive Runs
    (wanted : Phase → Bool)
    (memory : Memory) :
    Phase → Cursor → Progress → Prop where
  /-- Nothing that is wanted follows the item. -/
  | last
      {phase : Phase}
      {cursor : Cursor}
      (ends :
        ∀ next,
          (item memory phase cursor).outcome = .ok (.follows next) →
          wanted next = false) :
      Runs wanted memory phase cursor (item memory phase cursor)
  /-- The run goes on after the item. -/
  | goesOn
      {phase next : Phase}
      {cursor : Cursor}
      {progress : Progress}
      (follows :
        (item memory phase cursor).outcome = .ok (.follows next))
      (isWanted : wanted next = true)
      (later :
        Runs wanted memory next (item memory phase cursor).cursor
          progress) :
      Runs wanted memory phase cursor
        (progress.after (item memory phase cursor).events)

/-- A cursor is reached from another one by items that follow each other. -/
inductive Reaches (memory : Memory) :
    Phase → Cursor → Phase → Cursor → Prop where
  | refl (phase : Phase) (cursor : Cursor) :
      Reaches memory phase cursor phase cursor
  | cons
      {phase next last : Phase}
      {cursor met : Cursor}
      (follows :
        (item memory phase cursor).outcome = .ok (.follows next))
      (later :
        Reaches memory next (item memory phase cursor).cursor last met) :
      Reaches memory phase cursor last met

variable {memory : Memory} {wanted : Phase → Bool}
  {phase next : Phase} {cursor : Cursor} {progress : Progress}

/-- A run goes on behind an item that a wanted phase follows. -/
theorem runWhile_of_follows
    (follows : (item memory phase cursor).outcome = .ok (.follows next))
    (isWanted : wanted next = true) :
    runWhile wanted memory phase cursor =
      (runWhile wanted memory next
        (item memory phase cursor).cursor).after
        (item memory phase cursor).events := by
  rw [runWhile]
  split
  · next other otherFollows =>
      rw [otherFollows] at follows
      cases follows
      rw [if_pos isWanted]
  · next noneFollows =>
      exact absurd follows (noneFollows next)

/-- A run ends with an item that nothing wanted follows. -/
theorem runWhile_of_ends
    (ends :
      ∀ next,
        (item memory phase cursor).outcome = .ok (.follows next) →
        wanted next = false) :
    runWhile wanted memory phase cursor = item memory phase cursor := by
  rw [runWhile]
  split
  · next other follows =>
      rw [if_neg (by simp [ends other follows])]
  · rfl

/-- A run makes its progress item by item. -/
theorem runs_runWhile
    (wanted : Phase → Bool)
    (memory : Memory)
    (phase : Phase)
    (cursor : Cursor) :
    Runs wanted memory phase cursor
      (runWhile wanted memory phase cursor) := by
  -- Every item that another one follows brings the end of the region nearer.
  induction left : remaining cursor using Nat.strong_induction_on
    generalizing phase cursor with
  | _ left inductionHypothesis =>
      by_cases ends :
          ∀ next,
            (item memory phase cursor).outcome = .ok (.follows next) →
            wanted next = false
      · rw [runWhile_of_ends ends]
        exact .last ends
      · push Not at ends
        obtain ⟨next, follows, isWanted⟩ := ends
        rw [Bool.ne_false_iff] at isWanted
        rw [runWhile_of_follows follows isWanted]
        exact .goesOn follows isWanted
          (inductionHypothesis _ (left ▸ remaining_item_lt follows)
            next _ rfl)

theorem runs_run
    (memory : Memory)
    (phase : Phase)
    (cursor : Cursor) :
    Runs (fun _ => true) memory phase cursor (run memory phase cursor) :=
  runs_runWhile _ memory phase cursor

namespace Runs

/-- A run leaves the cursor in its region, in its place or further on. -/
theorem moves
    (runs : Runs wanted memory phase cursor progress) :
    cursor.Moves progress.cursor := by
  induction runs with
  | last ends =>
      exact item_moves ..
  | goesOn follows isWanted later inductionHypothesis =>
      exact (item_moves ..).trans inductionHypothesis

end Runs

/--
A packet leaves the cursor in its region, with the compressed data after it.
-/
theorem step_moves
    (memory : Memory)
    (cursor : Cursor) :
    cursor.Moves (step memory cursor).cursor := by
  unfold step
  dsimp only
  split
  · exact packet_moves.trans (runs_runWhile ..).moves
  · exact packet_moves

/-- A packet that something follows moves the cursor on, inside its region. -/
theorem lt_addr_step
    (follows : (step memory cursor).outcome = .ok (.follows next)) :
    cursor.addr < (step memory cursor).cursor.addr ∧
      (step memory cursor).cursor.addr ≤ cursor.stop := by
  have moves : cursor.Moves (packet memory cursor).cursor := packet_moves
  unfold step at follows ⊢
  dsimp only at follows ⊢
  split at follows
  · next formsFollow =>
      have first :=
        lt_addr_of_moves moves (remaining_packet_lt formsFollow)
      have stop_eq := moves.stop_eq
      have later :=
        (runs_runWhile (· == .forms) memory .forms
          (packet memory cursor).cursor).moves.place
      simp only [compressedData, Progress.after]
      omega
  · exact lt_addr_of_moves moves (remaining_packet_lt follows)

/-- A run ends with an item that nothing follows. -/
theorem run_of_ended
    {last : Cursor}
    {events : List Event}
    {ending : Ending}
    (itemIs :
      item memory phase cursor = ⟨events, last, .ok (.ended ending)⟩) :
    run memory phase cursor = ⟨events, last, .ok (.ended ending)⟩ := by
  have ends :
      ∀ next,
        (item memory phase cursor).outcome = .ok (.follows next) →
        true = false := by
    intro next follows
    rw [itemIs] at follows
    cases follows
  rw [run, runWhile_of_ends ends, itemIs]

/-! ## What is passed on the way -/

/-- The events of the items that lead from one cursor to another one. -/
inductive Passes (memory : Memory) :
    Phase → Cursor → List Event → Phase → Cursor → Prop where
  | refl (phase : Phase) (cursor : Cursor) :
      Passes memory phase cursor [] phase cursor
  | cons
      {phase next last : Phase}
      {cursor met : Cursor}
      {events : List Event}
      (follows :
        (item memory phase cursor).outcome = .ok (.follows next))
      (later :
        Passes memory next (item memory phase cursor).cursor events last
          met) :
      Passes memory phase cursor
        ((item memory phase cursor).events ++ events) last met

namespace Passes

variable {last : Phase} {met : Cursor} {events : List Event}

/-- Items in a row move the cursor on, inside its region. -/
theorem moves
    (passes : Passes memory phase cursor events last met) :
    cursor.Moves met := by
  induction passes with
  | refl phase cursor =>
      exact .refl cursor
  | cons follows later inductionHypothesis =>
      exact (item_moves ..).trans inductionHypothesis

/-- A run begins with the items that are passed, and goes on from there. -/
theorem run_eq
    (passes : Passes memory phase cursor events last met) :
    run memory phase cursor = (run memory last met).after events := by
  induction passes with
  | refl phase cursor =>
      rfl
  | cons follows later inductionHypothesis =>
      rw [run, runWhile_of_follows follows rfl, ← run,
        inductionHypothesis]
      simp only [Progress.after, List.append_assoc]

theorem append
    {final : Phase}
    {reached : Cursor}
    {others : List Event}
    (first : Passes memory phase cursor events last met)
    (later : Passes memory last met others final reached) :
    Passes memory phase cursor (events ++ others) final reached := by
  induction first with
  | refl phase cursor =>
      exact later
  | cons follows rest inductionHypothesis =>
      rw [List.append_assoc]
      exact .cons follows (inductionHypothesis later)

/-- An item that is known is passed in front of others. -/
theorem cons_of_eq
    {next : Phase}
    {middle : Cursor}
    {others : List Event}
    (itemIs :
      item memory phase cursor =
        ⟨events, middle, .ok (.follows next)⟩)
    (later : Passes memory next middle others last met) :
    Passes memory phase cursor (events ++ others) last met := by
  have follows :
      (item memory phase cursor).outcome = .ok (.follows next) := by
    rw [itemIs]
  have passes := Passes.cons follows (by rw [itemIs]; exact later)
  rwa [itemIs] at passes

end Passes

/-- Every place that is reached is passed with some events on the way. -/
theorem Reaches.exists_passes
    {last : Phase}
    {met : Cursor}
    (reaches : Reaches memory phase cursor last met) :
    ∃ events, Passes memory phase cursor events last met := by
  induction reaches with
  | refl phase cursor =>
      exact ⟨[], .refl phase cursor⟩
  | cons follows later inductionHypothesis =>
      obtain ⟨events, passes⟩ := inductionHypothesis
      exact ⟨_, .cons follows passes⟩

/-! ## What a run leads to -/

/-- Whether a run meets a reference to an extended shader record. -/
def MeetsExtended
    (memory : Memory)
    (phase : Phase)
    (cursor : Cursor) : Prop :=
  ∃ met,
    Reaches memory phase cursor .packets met ∧
      met.MeetsExtendedReference

/-- What a run over a list can lead to. -/
inductive Leads
    (memory : Memory)
    (phase : Phase)
    (cursor : Cursor) :
    Progress → Prop where
  /-- The list ends, or decoding stops. -/
  | ended
      {events : List Event}
      {next : Cursor}
      {ending : Ending}
      (plain : ¬MeetsExtended memory phase cursor)
      (regular : ∀ event ∈ events, event.Regular memory) :
      Leads memory phase cursor ⟨events, next, .ok (.ended ending)⟩
  /-- A reference leads to an address in no buffer. -/
  | unmapped
      {events : List Event}
      {next : Cursor}
      {addr : Int}
      (plain : ¬MeetsExtended memory phase cursor)
      (regular : ∀ event ∈ events, event.Regular memory) :
      Leads memory phase cursor ⟨events, next, .error (.unmapped addr)⟩
  /-- A reference leads to an extended shader record. -/
  | extended
      {events : List Event}
      {next : Cursor}
      (extended : MeetsExtended memory phase cursor)
      (regular : ∀ event ∈ events, event.Regular memory) :
      Leads memory phase cursor
        ⟨events, next, .error .extendedShaderRecord⟩

/-- Where nothing follows, only the item itself can be an extended reference. -/
theorem meetsExtended_iff_of_ends
    (ends :
      ∀ next,
        (item memory phase cursor).outcome ≠ .ok (.follows next)) :
    MeetsExtended memory phase cursor ↔ IsExtendedItem phase cursor := by
  constructor
  · rintro ⟨met, reaches, meets⟩
    cases reaches with
    | refl =>
        exact ⟨rfl, meets⟩
    | cons follows later =>
        exact absurd follows (ends _)
  · rintro ⟨rfl, meets⟩
    exact ⟨cursor, .refl _ _, meets⟩

/-- Where an item follows, an extended reference can only come later. -/
theorem meetsExtended_iff_of_follows
    (follows : (item memory phase cursor).outcome = .ok (.follows next))
    (plain : ¬IsExtendedItem phase cursor) :
    MeetsExtended memory phase cursor ↔
      MeetsExtended memory next (item memory phase cursor).cursor := by
  constructor
  · rintro ⟨met, reaches, meets⟩
    cases reaches with
    | refl =>
        exact absurd ⟨rfl, meets⟩ plain
    | cons otherFollows later =>
        rw [otherFollows] at follows
        cases follows
        exact ⟨met, later, meets⟩
  · rintro ⟨met, reaches, meets⟩
    exact ⟨met, .cons follows reaches, meets⟩

/-- Regular events in front of a run make no difference. -/
theorem Leads.after
    {earlier : List Event}
    (leads : Leads memory phase cursor progress)
    (regular : ∀ event ∈ earlier, event.Regular memory) :
    Leads memory phase cursor (progress.after earlier) := by
  have both :
      ∀ {events : List Event},
        (∀ event ∈ events, event.Regular memory) →
        ∀ event ∈ earlier ++ events, event.Regular memory := by
    intro events later event member
    rcases List.mem_append.mp member with early | late
    · exact regular event early
    · exact later event late
  cases leads with
  | ended plain later =>
      exact .ended plain (both later)
  | unmapped plain later =>
      exact .unmapped plain (both later)
  | extended extended later =>
      exact .extended extended (both later)

/--
Only whether a run meets an extended reference matters for what it leads to.
-/
theorem Leads.of_iff
    {other : Cursor}
    (leads : Leads memory next other progress)
    (same :
      MeetsExtended memory phase cursor ↔
        MeetsExtended memory next other) :
    Leads memory phase cursor progress := by
  cases leads with
  | ended plain regular =>
      exact .ended (fun extended => plain (same.mp extended)) regular
  | unmapped plain regular =>
      exact .unmapped (fun extended => plain (same.mp extended)) regular
  | extended extended regular =>
      exact .extended (same.mpr extended) regular

/-- A run over a list leads to what a run can lead to. -/
theorem Runs.leads
    (runs : Runs (fun _ => true) memory phase cursor progress)
    (within : cursor.Within)
    (isFormat : IsFormat cursor.primMode) :
    Leads memory phase cursor progress := by
  -- From item to item the cursor stays in its region, and its format in range.
  induction runs with
  | @last phase cursor ends =>
      have noneFollows :
          ∀ next,
            (item memory phase cursor).outcome ≠ .ok (.follows next) := by
        intro next follows
        exact Bool.noConfusion (ends next follows)
      have same := meetsExtended_iff_of_ends noneFollows
      have decodes := item_decodes memory phase within isFormat
      generalize item memory phase cursor = progress
        at decodes noneFollows
      cases decodes with
      | stays plain regular =>
          exact .ended (fun extended => plain (same.mp extended)) regular
      | @moves events moved outlook plain regular moves isFormat =>
          cases outlook with
          | follows next =>
              exact absurd rfl (noneFollows next)
          | ended ending =>
              exact .ended (fun extended => plain (same.mp extended)) regular
      | unmapped plain regular moves =>
          exact .unmapped (fun extended => plain (same.mp extended)) regular
      | extended extended regular =>
          exact .extended (same.mpr extended) regular
  | @goesOn phase next cursor progress follows isWanted later
      inductionHypothesis =>
      have decodes := item_decodes memory phase within isFormat
      obtain ⟨plain, nextFormat⟩ := decodes.of_follows follows
      have nextWithin := within.of_moves (item_moves memory phase cursor)
      exact ((inductionHypothesis nextWithin nextFormat).of_iff
        (meetsExtended_iff_of_follows follows plain)).after
        decodes.regular

end VideoCore.Walk
