import VideoCore.Proofs.Number.Binary
import VideoCore.Proofs.Record.Fields
import VideoCore.Proofs.Record.Layout

namespace VideoCore

/-!
# Writing records

The bytes that are written for a record say what its fields held: what is read
from them is what every field was set to, as far as its encoding tells
(`Layout.get?_of_write`).
-/

namespace Bytes

/-- The bytes of a number store its remainder. -/
theorem toWord_ofWord
    (size value : Nat) :
    toWord (ofWord size value) = value % 256 ^ size := by
  induction size generalizing value with
  | zero =>
      rw [ofWord, toWord, Nat.pow_zero, Nat.mod_one]
  | succ size inductionHypothesis =>
      rw [ofWord, toWord, inductionHypothesis, Nat.pow_succ',
        Nat.mod_mul, UInt8.toNat_ofNat']

/-- Bytes in front of a string that store a number below the bound. -/
theorem toWord_take_ofWord
    {size value : Nat}
    (small : value < 256 ^ size)
    (later : Bytes) :
    toWord ((ofWord size value ++ later).take size) = value := by
  rw [List.take_left' (length_ofWord size value), toWord_ofWord,
    Nat.mod_eq_of_lt small]

end Bytes

/-- Only numbers below the weight of a word are written to it. -/
theorem writeWord_eq_ok
    {size : Nat}
    {value : Int}
    {bytes : Bytes}
    (writes : writeWord size value = .ok bytes) :
    ∃ number : Nat,
      value = number ∧
        number < 256 ^ size ∧
        bytes = Bytes.ofWord size number := by
  unfold writeWord at writes
  split at writes
  · next inRange =>
      cases writes
      obtain ⟨number, rfl⟩ := Int.eq_ofNat_of_zero_le inRange.1
      have small : (number : Int) < ((256 ^ size : Nat) : Int) := by
        rw [Int.natCast_pow]
        exact inRange.2
      exact ⟨number, rfl, Int.ofNat_lt.mp small, rfl⟩
  · contradiction

/-- A number in two's complement is read with its sign. -/
theorem writeSignedWord_eq_ok
    {size : Nat}
    {value : Int}
    {bytes : Bytes}
    (writes : writeSignedWord size value = .ok bytes) :
    bytes.length = size ∧
      ∀ later,
        signExtend (8 * size) (Bytes.toWord ((bytes ++ later).take size)) =
          value := by
  unfold writeSignedWord at writes
  split at writes
  · next inRange =>
      cases writes
      refine ⟨Bytes.length_ofWord .., fun later => ?_⟩
      have weight : 2 ^ (8 * size) = 256 ^ size := Nat.pow_mul 2 8 size
      have power : (256 : Int) ^ size = (256 ^ size : Nat) :=
        (Int.natCast_pow 256 size).symm
      rw [power] at inRange ⊢
      have positive : 0 < 256 ^ size := Nat.pow_pos (by decide)
      have lower := Int.emod_nonneg value
        (show ((256 ^ size : Nat) : Int) ≠ 0 by omega)
      have upper := Int.emod_lt_of_pos value
        (show (0 : Int) < (256 ^ size : Nat) by omega)
      rw [Bytes.toWord_take_ofWord (by omega), Int.toNat_of_nonneg lower,
        signExtend_eq_bmod, weight, Int.emod_bmod]
      exact Int.bmod_eq_of_le_mul_two (by omega) (by omega)
  · contradiction

namespace Encoding

/-- What a value is read as once it has been written. -/
def settle : Encoding → Value → Value
  | .word _, value => .integer (value.integer?.getD 0)
  | .count _, value => .decimal (value.integer?.getD 0)
  | .signedWord _, value => .integer (value.integer?.getD 0)
  | .single, value =>
      .real (((value.realBits?.bind narrow?).map widen).getD 0)
  | .register type, value =>
      .register ⟨type, value.toInteger.toOption.getD 0⟩
  | .array _ element, value =>
      .list ((value.items?.getD []).map element.settle)

/-- Whether bytes are those of a value, and are read as what it settles to. -/
structure Stores
    (encoding : Encoding)
    (value : Value)
    (bytes : Bytes) : Prop where
  length_eq : bytes.length = encoding.size
  value_eq :
    ∀ later, encoding.value (bytes ++ later) = encoding.settle value

/-- What a word writes is the number it was given. -/
theorem stores_word
    {size : Nat}
    {value : Value}
    {bytes : Bytes}
    (writes :
      value.integer?.elim (.error (misfitOf size)) (writeWord size) =
        .ok bytes) :
    ∃ number : Nat,
      value.integer? = some (number : Int) ∧
        bytes.length = size ∧
        ∀ later, Bytes.toWord ((bytes ++ later).take size) = number := by
  cases isInteger : value.integer? with
  | none =>
      rw [isInteger] at writes
      contradiction
  | some integer =>
      rw [isInteger] at writes
      obtain ⟨number, rfl, small, rfl⟩ := writeWord_eq_ok writes
      exact ⟨number, rfl, Bytes.length_ofWord ..,
        Bytes.toWord_take_ofWord small⟩

/-- Elements that are written one by one are read one by one. -/
theorem stores_of_writeMany
    {element : Encoding}
    (each :
      ∀ value bytes,
        element.write value = .ok bytes → element.Stores value bytes)
    {items : List Value}
    {bytes : Bytes}
    (writes : writeMany element.write items = .ok bytes) :
    (array items.length element).Stores (.list items) bytes := by
  induction items generalizing bytes with
  | nil =>
      cases writes
      exact ⟨by simp [Encoding.size], fun _ => rfl⟩
  | cons first rest inductionHypothesis =>
      obtain ⟨own, firstWrites, writes⟩ :=
        Outcome.exists_of_bind_eq_ok writes
      obtain ⟨others, restWrites, same⟩ :=
        Outcome.exists_of_bind_eq_ok writes
      cases same
      have firstStores := each first own firstWrites
      have restStores := inductionHypothesis restWrites
      refine ⟨?_, fun later => ?_⟩
      · have length := restStores.length_eq
        rw [Encoding.size] at length
        rw [List.length_append, firstStores.length_eq, length,
          Encoding.size, List.length_cons, Nat.succ_mul, Nat.add_comm]
      · have values := restStores.value_eq later
        simp only [Encoding.value, settle, Value.items?,
          Option.getD_some, Value.list.injEq] at values ⊢
        rw [List.length_cons, elements, List.append_assoc,
          firstStores.value_eq,
          List.drop_left' firstStores.length_eq, values,
          List.map_cons]

/-- What an encoding writes stores the value it was given. -/
theorem stores_of_write
    {encoding : Encoding}
    {value : Value}
    {bytes : Bytes}
    (writes : encoding.write value = .ok bytes) :
    encoding.Stores value bytes := by
  induction encoding generalizing value bytes with
  | word size =>
      obtain ⟨number, isNumber, length, stored⟩ := stores_word writes
      exact ⟨length, by simp [Encoding.value, settle, isNumber, stored]⟩
  | count size =>
      obtain ⟨number, isNumber, length, stored⟩ := stores_word writes
      exact ⟨length, by simp [Encoding.value, settle, isNumber, stored]⟩
  | signedWord size =>
      cases isInteger : value.integer? with
      | none =>
          rw [write, isInteger] at writes
          contradiction
      | some integer =>
          rw [write, isInteger, Option.elim_some] at writes
          obtain ⟨length, stored⟩ := writeSignedWord_eq_ok writes
          exact ⟨length, by simp [Encoding.value, settle, isInteger, stored]⟩
  | single =>
      simp only [write] at writes
      split at writes
      · next bits isNarrow =>
          cases writes
          refine ⟨Bytes.length_ofWord .., fun later => ?_⟩
          have fits : bits < 256 ^ 4 := by
            obtain ⟨wide, _, narrows⟩ :=
              Option.bind_eq_some_iff.mp isNarrow
            exact narrow?_lt narrows
          rw [Encoding.value, Bytes.toWord_take_ofWord fits, settle,
            isNarrow, Option.map_some, Option.getD_some]
      · contradiction
  | register type =>
      obtain ⟨size, sizeIs, writes⟩ :=
        Outcome.exists_of_bind_eq_ok writes
      obtain ⟨raw, rawIs, writes⟩ := Outcome.exists_of_bind_eq_ok writes
      obtain ⟨number, rfl, small, rfl⟩ := writeWord_eq_ok writes
      have size_eq : (Encoding.register type).size = size := by
        rw [Encoding.size, sizeIs]
        rfl
      refine ⟨by rw [Bytes.length_ofWord, size_eq], fun later => ?_⟩
      rw [Encoding.value, size_eq, Bytes.toWord_take_ofWord small,
        settle, rawIs]
      rfl
  | array length element inductionHypothesis =>
      simp only [write] at writes
      split at writes
      · contradiction
      · next items itemsAre =>
          split at writes
          · next count =>
              subst count
              have stores :=
                stores_of_writeMany
                  (fun value bytes writes => inductionHypothesis writes)
                  writes
              refine ⟨stores.length_eq, fun later => ?_⟩
              rw [stores.value_eq later, settle, settle, itemsAre]
              rfl
          · contradiction

end Encoding

/-- The name and the encoding of a part that is always given. -/
def Part.stored? : Part → Option (String × Encoding)
  | .field name encoding none => some (name, encoding)
  | _ => none

/-- A constant is written as its byte. -/
theorem Part.eq_of_write_constant
    {name : String}
    {value : UInt8}
    {fields : Fields}
    {bytes : Bytes}
    {value? : Option Value}
    (writes :
      (Part.constant name value).write fields = .ok (bytes, value?)) :
    bytes = [value] := by
  simp only [write] at writes
  split at writes
  · cases writes
    rfl
  · cases writes
    rfl
  · split at writes <;> cases writes
    rfl

/-- The bytes of a part are as many as its size says. -/
theorem Part.length_of_write
    {part : Part}
    {fields : Fields}
    {bytes : Bytes}
    {value? : Option Value}
    {size : Nat}
    (writes : part.write fields = .ok (bytes, value?))
    (sizeIs : part.size? = some size) :
    bytes.length = size := by
  cases part with
  | constant name value =>
      cases sizeIs
      rw [eq_of_write_constant writes]
      rfl
  | field name encoding fallback =>
      cases sizeIs
      simp only [write] at writes
      split at writes
      · contradiction
      all_goals
        obtain ⟨stored, own, same⟩ := Outcome.exists_of_bind_eq_ok writes
        cases same
        exact (Encoding.stores_of_write own).length_eq
  | content name lengthField =>
      contradiction
  | computed name rule =>
      cases sizeIs
      obtain ⟨value, own, same⟩ := Outcome.exists_of_bind_eq_ok writes
      cases same
      rfl
  | padding count =>
      cases sizeIs
      cases writes
      exact List.length_replicate ..

namespace Layout

variable {layout : Layout} {fields before final : Fields}
  {bytes later : Bytes}

/-- A layout of fixed size writes as many bytes. -/
theorem length_of_write
    {size : Nat}
    (writes : layout.write fields = .ok bytes)
    (sizeIs : layout.size? = some size) :
    bytes.length = size := by
  induction layout generalizing fields bytes size with
  | nil =>
      cases writes
      cases sizeIs
      rfl
  | cons part rest inductionHypothesis =>
      obtain ⟨⟨own, value?⟩, first, writes⟩ :=
        Outcome.exists_of_bind_eq_ok writes
      obtain ⟨others, restWrites, same⟩ :=
        Outcome.exists_of_bind_eq_ok writes
      cases same
      obtain ⟨_, _, ownSize, restIs, rfl⟩ := exists_sizes sizeIs
      rw [List.length_append, Part.length_of_write first ownSize,
        inductionHypothesis restWrites restIs]

/-- A layout with a constant in front begins with it. -/
theorem head?_of_write
    {name : String}
    {value : UInt8}
    {rest : Layout}
    (writes :
      Layout.write fields (.constant name value :: rest) = .ok bytes) :
    bytes.head? = some value := by
  obtain ⟨⟨own, value?⟩, first, writes⟩ :=
    Outcome.exists_of_bind_eq_ok writes
  obtain ⟨others, _, same⟩ := Outcome.exists_of_bind_eq_ok writes
  cases same
  rw [Part.eq_of_write_constant first]
  rfl

/-- The parts that are always given, with their encodings. -/
def encodings (layout : Layout) : List (String × Encoding) :=
  layout.filterMap Part.stored?

/-- The fields of a record as they are read once they have been written. -/
def settle
    (layout : Layout)
    (fields : Fields) : Fields :=
  layout.encodings.map fun (name, encoding) =>
    (name, encoding.settle (fields.get name))

/-- Settling a field is up to its own encoding. -/
theorem get?_settle
    (layout : Layout)
    (fields : Fields)
    (name : String) :
    (layout.settle fields).get? name =
      (layout.encodings.lookup name).map fun encoding =>
        encoding.settle (fields.get name) := by
  unfold settle
  induction layout.encodings with
  | nil =>
      rfl
  | cons first rest inductionHypothesis =>
      rw [List.map_cons, Fields.get?_cons, inductionHypothesis,
        List.lookup_cons]
      by_cases same : first.1 = name
      · subst same
        simp
      · have different : (name == first.1) = false := by
          simpa using Ne.symm same
        rw [if_neg same, different]

theorem name?_of_stored?
    {part : Part}
    {name : String}
    {encoding : Encoding}
    (stored : part.stored? = some (name, encoding)) :
    part.name? = some name := by
  cases part with
  | field own other fallback =>
      cases fallback <;> cases stored
      rfl
  | constant | content | computed | padding =>
      contradiction

theorem mem_names_of_lookup
    {name : String}
    {encoding : Encoding}
    (stored : layout.encodings.lookup name = some encoding) :
    name ∈ layout.names := by
  obtain ⟨earlier, others, shape, _⟩ := List.lookup_eq_some_iff.mp stored
  have member : (name, encoding) ∈ layout.encodings := by
    rw [shape]
    simp
  obtain ⟨part, partMember, isStored⟩ := List.mem_filterMap.mp member
  exact List.mem_filterMap.mpr ⟨part, partMember, name?_of_stored? isStored⟩

/-- Reading leaves fields of other names as they are. -/
theorem Yields.get?_of_not_mem
    (yields : Yields before layout bytes final)
    {name : String}
    (other : name ∉ layout.names) :
    final.get? name = before.get? name := by
  induction yields with
  | nil fields bytes =>
      rfl
  | constant begins later inductionHypothesis
  | field plain fits later inductionHypothesis
  | computed gives shown later inductionHypothesis =>
      rw [names_cons, List.mem_append, not_or] at other
      rw [inductionHypothesis other.2, Fields.get?_set, if_neg]
      rintro rfl
      exact other.1 (by simp [Part.name?])

/-- A part takes its bytes off the front; a stored one gives its value. -/
theorem Yields.exists_rest
    {part : Part}
    {rest : Layout}
    (yields : Yields before (part :: rest) bytes final) :
    ∃ size next,
      part.size? = some size ∧
        Yields next rest (bytes.drop size) final ∧
        ∀ name encoding,
          part.stored? = some (name, encoding) →
          next.get? name = some (encoding.value bytes) := by
  cases yields with
  | constant begins later =>
      exact ⟨_, _, rfl, later, fun _ _ stored => by contradiction⟩
  | @field _ _ name encoding fallback _ _ plain fits later =>
      refine ⟨_, _, rfl, later, fun other otherEncoding stored => ?_⟩
      cases fallback <;> cases stored
      rw [Fields.get?_set, if_pos rfl]
  | computed gives shown later =>
      exact ⟨0, _, rfl, later, fun _ _ stored => by contradiction⟩

/-- A stored part is written as the value of its name. -/
theorem stores_of_write
    {part : Part}
    {name : String}
    {encoding : Encoding}
    {value? : Option Value}
    (stored : part.stored? = some (name, encoding))
    (writes : part.write fields = .ok (bytes, value?)) :
    encoding.Stores (fields.get name) bytes := by
  cases part with
  | field own other fallback =>
      cases fallback with
      | some value =>
          contradiction
      | none =>
          cases stored
          cases given : fields.get? name with
          | none =>
              simp only [Part.write, given] at writes
              contradiction
          | some value =>
              simp only [Part.write, given] at writes
              obtain ⟨content, own, same⟩ :=
                Outcome.exists_of_bind_eq_ok writes
              cases same
              rw [Fields.get, given]
              exact Encoding.stores_of_write own
  | constant | content | computed | padding =>
      contradiction

/-- Every stored field is read as what it was set to. -/
theorem get?_of_write
    (distinct : layout.names.Nodup)
    (writes : layout.write fields = .ok bytes)
    (yields : Yields before layout (bytes ++ later) final)
    {name : String}
    {encoding : Encoding}
    (stored : layout.encodings.lookup name = some encoding) :
    final.get? name = some (encoding.settle (fields.get name)) := by
  -- The names are distinct, so that no part changes what another one records.
  induction layout generalizing fields before bytes with
  | nil =>
      contradiction
  | cons part rest inductionHypothesis =>
      obtain ⟨⟨own, value?⟩, first, writes⟩ :=
        Outcome.exists_of_bind_eq_ok writes
      obtain ⟨others, restWrites, same⟩ :=
        Outcome.exists_of_bind_eq_ok writes
      cases same
      obtain ⟨size, next, sizeIs, restYields, given⟩ :=
        yields.exists_rest
      rw [List.append_assoc] at restYields given
      rw [List.drop_left' (Part.length_of_write first sizeIs)]
        at restYields
      obtain ⟨restDistinct, otherName⟩ := nodup_names_cons distinct
      have ofRest :
          (encodings rest).lookup name = some encoding →
            final.get? name = some (encoding.settle (fields.get name)) := by
        intro inRest
        have unchanged :=
          Part.get?_record (otherName name (mem_names_of_lookup inRest))
            fields value?
        rw [inductionHypothesis restDistinct restWrites restYields inRest,
          Fields.get, unchanged, Fields.get]
      cases isStored : part.stored? with
      | none =>
          simp only [encodings, List.filterMap_cons, isStored] at stored
          exact ofRest stored
      | some field =>
          obtain ⟨ownName, ownEncoding⟩ := field
          simp only [encodings, List.filterMap_cons, isStored,
            List.lookup_cons] at stored
          by_cases isOwn : name = ownName
          · subst isOwn
            have unknown : name ∉ names rest := fun member =>
              otherName name member (name?_of_stored? isStored)
            rw [beq_self_eq_true] at stored
            cases stored
            rw [restYields.get?_of_not_mem unknown,
              given name encoding isStored,
              (stores_of_write isStored first).value_eq]
          · have different : (name == ownName) = false := by
              simpa using isOwn
            rw [different] at stored
            exact ofRest stored

end Layout

end VideoCore
