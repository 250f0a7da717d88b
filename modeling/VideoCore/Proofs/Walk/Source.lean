import VideoCore.Proofs.Compressed
import VideoCore.Proofs.Packet.Writing
import VideoCore.Proofs.Walk.Area

namespace VideoCore

/-!
# Lists that are put together

A list is put together from packets and from runs of compressed index data.
Where the bytes of a part stand at a cursor, the walk finds this part and
nothing else, and goes on behind it.
-/

open Walk

/-! ## Packets -/

namespace PacketSource

variable {source : PacketSource} {memory : Memory} {cursor : Cursor}
  {later : Bytes}

theorem length_pos :
    0 < source.bytes.length := by
  rw [length_bytes]
  exact PacketType.size_pos_of_mem_all source.known

def behind
    (source : PacketSource)
    (cursor : Cursor) : Cursor :=
  { cursor.advance source.bytes.length with
    primMode := source.modeAfter cursor.primMode }

/-- A packet that refers to captured memory is found where its bytes are. -/
theorem item_eq
    (resolved : source.IsResolved memory)
    (has : cursor.Has (source.bytes ++ later)) :
    ∃ events,
      source.events memory cursor.addr cursor.primMode = .ok events ∧
        Walk.item memory .packets cursor =
          ⟨events, source.behind cursor,
            .ok (Walk.outlookAfter source.type)⟩ := by
  obtain ⟨opcode, begins, opcodeIs⟩ :=
    PacketType.head?_of_write source.known source.writes
  have found := PacketType.find?_of_mem_all source.known opcodeIs
  have fits := has.fits length_pos
  have inside := has.addr_add_le length_pos
  have positive := source.length_pos
  have begun : source.bytes.take 1 = [opcode] := by
    rw [List.take_one, begins]
    rfl
  obtain ⟨final, record, yields, readsAs, fieldsAre, listable⟩ :=
    PacketType.exists_read found begun rfl (by rw [length_bytes])
      cursor.addr
  obtain ⟨entries, entriesAre, _⟩ :=
    listable.exists_entries id ["opcode"]
  obtain ⟨area?, applied⟩ := exists_apply resolved cursor.primMode
  refine ⟨_, by
    rw [events, readsAs, Outcome.ok_bind, entriesAre, Outcome.ok_bind,
      applied, Outcome.ok_bind], ?_⟩
  have taken := has.take_eq
  rw [length_bytes] at fits taken
  rw [Walk.item, if_pos (by omega)]
  simp only [Walk.packet, has.peek_eq begins, found, fits, if_true,
    Walk.knownPacket, taken, readsAs, entriesAre, Walk.carryOut,
    fieldsAre, apply_eq yields, applied, opcodeIs, Option.getD_some]
  rw [behind, length_bytes]

end PacketSource

/-! ## Forms of compressed index data -/

namespace IndexForm

theorem nodup_names
    (form : IndexForm) :
    form.record.layout.names.Nodup := by
  cases form <;> decide

/-- The indices of a form depend on its stored fields only. -/
theorem indices_congr
    {form : IndexForm}
    {fields other : Fields}
    (same :
      ∀ name encoding,
        form.record.layout.encodings.lookup name = some encoding →
        isKept name = true →
        fields.get name = other.get name) :
    form.indices fields = form.indices other := by
  have keptIndex : isKept "index" = true := by decide +kernel
  have keptHeader : isKept "header" = true := by decide +kernel
  cases form with
  | escape | branch =>
      rfl
  | absolute =>
      simp only [indices, same "index" _ rfl keptIndex]
  | absoluteRelative =>
      simp only [indices, headerField, same "index" _ rfl keptIndex,
        same "header" _ rfl keptHeader]
  | threeRelative | oneRelative =>
      simp only [indices, headerField, same "header" _ rfl keptHeader]

end IndexForm

/-- A form that holds indices and is put together from values for its fields. -/
structure FormSource where
  form : IndexForm
  fields : Fields
  bytes : Bytes
  holdsIndices : form ≠ .escape ∧ form ≠ .branch
  writes : form.record.layout.write fields = .ok bytes
  selects : ∀ code ∈ bytes.head?, IndexForm.ofCode code.toNat = form

/-- A form that holds indices is listed with these, and others may follow. -/
theorem Walk.knownForm_of_holdsIndices
    {memory : Memory}
    {cursor : Cursor}
    {form : IndexForm}
    {record : Record}
    (holdsIndices : form ≠ .escape ∧ form ≠ .branch)
    (reads :
      form.record.read (cursor.take form.size) (some cursor.addr) =
        .ok record) :
    knownForm memory cursor form =
      ⟨[formEvent form cursor.addr (form.indices record.fields)],
        cursor.advance form.size, .ok (.follows .forms)⟩ := by
  unfold knownForm
  rw [reads]
  cases form with
  | escape =>
      exact absurd rfl holdsIndices.1
  | branch =>
      exact absurd rfl holdsIndices.2
  | absolute | absoluteRelative | threeRelative | oneRelative =>
      rfl

namespace FormSource

/-- The indices that the fields of the form stand for. -/
def indices (source : FormSource) : Value :=
  source.form.indices (source.form.record.layout.settle source.fields)

variable {source : FormSource} {memory : Memory} {cursor : Cursor}
  {later : Bytes}

theorem length_bytes :
    source.bytes.length = source.form.size :=
  Layout.length_of_write source.writes source.form.size?_eq

theorem length_pos :
    0 < source.bytes.length := by
  rw [length_bytes]
  exact source.form.size_pos

/-- A written form begins with a code that selects it. -/
theorem exists_code :
    ∃ code : UInt8,
      source.bytes.head? = some code ∧
        IndexForm.ofCode code.toNat = source.form := by
  cases bytesAre : source.bytes with
  | nil =>
      have positive := source.length_pos
      rw [bytesAre] at positive
      contradiction
  | cons code rest =>
      exact ⟨code, rfl, source.selects code (by rw [bytesAre]; rfl)⟩

/-- The indices of a written form are read back. -/
theorem indices_eq
    {final : Fields}
    (yields :
      Layout.Yields [] source.form.record.layout source.bytes final) :
    source.form.indices (final.filter fun (name, _) => isKept name) =
      source.indices := by
  apply IndexForm.indices_congr
  intro name encoding stored kept
  rw [← List.append_nil source.bytes] at yields
  rw [Fields.get, Fields.get, Fields.get?_filter final kept,
    Layout.get?_settle, stored,
    Layout.get?_of_write source.form.nodup_names source.writes yields
      stored]
  rfl

/-- A form that holds indices is found where its bytes are. -/
theorem item_eq
    (isTriangles : cursor.primMode = trianglesPrimMode)
    (has : cursor.Has (source.bytes ++ later)) :
    Walk.item memory .forms cursor =
      ⟨[Walk.formEvent source.form cursor.addr source.indices],
        cursor.advance source.bytes.length, .ok (.follows .forms)⟩ := by
  have inside := has.addr_add_le length_pos
  have positive := source.length_pos
  have fits := has.fits length_pos
  have taken := has.take_eq
  obtain ⟨code, begins, selected⟩ := source.exists_code
  have begun : source.bytes.take 1 = [code] := by
    rw [List.take_one, begins]
    rfl
  obtain ⟨final, record, yields, readsAs, fieldsAre⟩ :=
    IndexForm.exists_read selected begun (by rw [length_bytes])
      cursor.addr
  rw [length_bytes] at inside positive fits taken ⊢
  rw [← taken] at readsAs
  rw [Walk.item, if_neg (not_not_intro isTriangles), if_pos (by omega)]
  simp only [Walk.form, has.peek_eq begins, selected, fits, if_true]
  rw [Walk.knownForm_of_holdsIndices source.holdsIndices readsAs,
    fieldsAre, indices_eq yields]

end FormSource

/-! ## Compressed data -/

namespace FormSource

def dataBytes (forms : List FormSource) : Bytes :=
  forms.flatMap bytes ++ [128]

/--
The events of forms that begin at an address, and of the escape behind them.
-/
def dataEvents (addr : Int) : List FormSource → List Event
  | [] => [formEvent .escape addr .absent]
  | source :: rest =>
      formEvent source.form addr source.indices ::
        dataEvents (addr + source.bytes.length) rest

variable {memory : Memory} {cursor : Cursor} {later : Bytes}

/-- The escape behind the forms leads back to packets. -/
theorem item_escape
    (isTriangles : cursor.primMode = trianglesPrimMode)
    (has : cursor.Has ([128] ++ later)) :
    item memory .forms cursor =
      ⟨[formEvent .escape cursor.addr .absent], cursor.advance 1,
        .ok (.follows .packets)⟩ := by
  have nonempty : 0 < ([128] : Bytes).length := by decide
  have inside : cursor.addr + 1 ≤ cursor.stop :=
    has.addr_add_le nonempty
  have fits : cursor.fits IndexForm.escape.size = true :=
    has.fits nonempty
  have taken : cursor.take IndexForm.escape.size = [128] := has.take_eq
  have begins : cursor.peek = .ok 128 := has.peek_eq rfl
  have selected : IndexForm.ofCode (128 : UInt8).toNat = .escape := rfl
  have begun : ([128] : Bytes).take 1 = [128] := rfl
  obtain ⟨_, record, _, readsAs, _⟩ :=
    IndexForm.exists_read selected begun (by decide) cursor.addr
  rw [item, if_neg (not_not_intro isTriangles), if_pos (by omega)]
  simp only [Walk.form, begins, selected, fits, if_true, knownForm, taken,
    readsAs]
  rfl

/-- Compressed data is found where its bytes are, and packets behind it. -/
theorem passes_data
    (forms : List FormSource)
    (isTriangles : cursor.primMode = trianglesPrimMode)
    (has : cursor.Has (dataBytes forms ++ later)) :
    Passes memory .forms cursor (dataEvents cursor.addr forms) .packets
      (cursor.advance (dataBytes forms).length) := by
  -- Every form leaves the cursor at the bytes of the next one.
  induction forms generalizing cursor with
  | nil =>
      exact .cons_of_eq (item_escape isTriangles has) (.refl _ _)
  | cons source rest inductionHypothesis =>
      have split :
          dataBytes (source :: rest) = source.bytes ++ dataBytes rest := by
        rw [dataBytes, dataBytes, List.flatMap_cons, List.append_assoc]
      rw [split, List.append_assoc] at has
      have behind := has.advance source.length_pos cursor.primMode
      have passes :=
        @inductionHypothesis (cursor.advance source.bytes.length)
          isTriangles behind
      rw [split, List.length_append, Int.natCast_add, Cursor.advance_add]
      exact .cons_of_eq (source.item_eq isTriangles has) passes

end FormSource

/-! ## Parts of lists -/

/--
A part of a list: a packet, or a packet with the compressed data behind it.
-/
inductive ListItem
  | packet (source : PacketSource)
  | compressed (head : PacketSource) (forms : List FormSource)

namespace ListItem

def bytes : ListItem → Bytes
  | .packet source => source.bytes
  | .compressed head forms => head.bytes ++ FormSource.dataBytes forms

def modeAfter (primMode : Int) : ListItem → Int
  | .packet source => source.modeAfter primMode
  | .compressed _ _ => primMode

/--
Whether a part can stand where a format is in force: a packet that the list goes
on behind and that refers to captured memory, or compressed triangles.
-/
def IsReady
    (memory : Memory)
    (primMode : Int) :
    ListItem → Prop
  | .packet source =>
      source.type.terminal = false ∧
        source.type.compressed = false ∧
        source.IsResolved memory
  | .compressed head _ =>
      head.type.compressed = true ∧ primMode = trianglesPrimMode

def events
    (memory : Memory)
    (addr primMode : Int) :
    ListItem → Except Fault (List Event)
  | .packet source => source.events memory addr primMode
  | .compressed head forms => do
      let shown ← head.events memory addr primMode
      .ok (shown ++ FormSource.dataEvents (addr + head.bytes.length) forms)

variable {memory : Memory} {cursor : Cursor} {later : Bytes}

def behind
    (item : ListItem)
    (cursor : Cursor) : Cursor :=
  { cursor.advance item.bytes.length with
    primMode := item.modeAfter cursor.primMode }

theorem length_pos
    (item : ListItem) :
    0 < item.bytes.length := by
  cases item with
  | packet source =>
      exact source.length_pos
  | compressed head forms =>
      have positive := head.length_pos
      rw [bytes, List.length_append]
      omega

/-- A part is found where its bytes are, and packets behind it. -/
theorem exists_passes
    {item : ListItem}
    (ready : item.IsReady memory cursor.primMode)
    (has : cursor.Has (item.bytes ++ later)) :
    ∃ events,
      item.events memory cursor.addr cursor.primMode = .ok events ∧
        Passes memory .packets cursor events .packets
          (item.behind cursor) := by
  cases item with
  | packet source =>
      obtain ⟨goesOn, plain, resolved⟩ := ready
      obtain ⟨events, eventsAre, itemIs⟩ := source.item_eq resolved has
      refine ⟨events, eventsAre, ?_⟩
      rw [outlookAfter, goesOn, plain] at itemIs
      rw [← List.append_nil events]
      exact .cons_of_eq itemIs (.refl _ _)
  | compressed head forms =>
      obtain ⟨isCompressed, isTriangles⟩ := ready
      obtain ⟨goesOn, noEffect⟩ :=
        PacketType.goesOn_of_compressed head.type head.known isCompressed
      have resolved : head.IsResolved memory := by
        rw [PacketSource.IsResolved, noEffect]
        trivial
      have sameMode :
          head.modeAfter cursor.primMode = cursor.primMode := by
        rw [PacketSource.modeAfter, noEffect]
      rw [bytes, List.append_assoc] at has
      obtain ⟨shown, shownAre, itemIs⟩ := head.item_eq resolved has
      rw [outlookAfter, goesOn, isCompressed] at itemIs
      have next :
          (cursor.advance head.bytes.length).Has
            (FormSource.dataBytes forms ++ later) :=
        has.advance head.length_pos cursor.primMode
      have stillTriangles :
          (cursor.advance head.bytes.length).primMode =
            trianglesPrimMode :=
        isTriangles
      refine
        ⟨shown ++
          FormSource.dataEvents (cursor.addr + head.bytes.length) forms,
          by rw [events, shownAre]; rfl, ?_⟩
      have place :
          behind (compressed head forms) cursor =
            (cursor.advance head.bytes.length).advance
              (FormSource.dataBytes forms).length := by
        rw [behind, bytes, List.length_append, Int.natCast_add,
          Cursor.advance_add]
        rfl
      rw [place]
      rw [PacketSource.behind, sameMode] at itemIs
      exact .cons_of_eq itemIs
        (FormSource.passes_data forms stillTriangles next)

end ListItem

end VideoCore
