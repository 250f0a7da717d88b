import VideoCore.Area.Request
import VideoCore.Proofs.Report.Traced
import VideoCore.Proofs.Shader.Walk

namespace VideoCore

/-!
# What requests ask for

Every request asks for one area, all of whose fields it determines
(`AreaRequest.AsksFor`), or is refused for one of a few reasons
(`AreaRequest.IsRefused`).
-/

/-! ## Types by number -/

namespace AreaType

/-- There is a type for every number from 0 to 5. -/
theorem ofNumber_cases
    (number : Int) :
    ((0 ≤ number ∧ number < 6) ∧ ∃ type, ofNumber number = .ok type) ∨
      (number < 0 ∨ 6 ≤ number) ∧ ofNumber number = .error .badValue := by
  have count : all.length = 6 := rfl
  by_cases negative : number < 0
  · right
    rw [ofNumber, if_pos negative]
    exact ⟨Or.inl negative, rfl⟩
  rw [ofNumber, if_neg negative]
  cases found : all[number.toNat]? with
  | some type =>
      obtain ⟨inside, _⟩ := List.getElem?_eq_some_iff.mp found
      exact Or.inl ⟨by omega, type, rfl⟩
  | none =>
      have outside := List.getElem?_eq_none_iff.mp found
      exact Or.inr ⟨by omega, rfl⟩

@[simp] theorem ofNumber_number
    (type : AreaType) :
    ofNumber type.number = .ok type := by
  cases type <;> rfl

end AreaType

namespace Memory

variable {memory : Memory}

/-- A type that is given by its number is as good as the type itself. -/
theorem numberedArea_eq
    {number : Int}
    {type : AreaType}
    (isType : AreaType.ofNumber number = .ok type)
    {paddr : Int}
    (covered : memory.Covers paddr)
    (size primMode attributes : Int)
    (extended : Bool) :
    memory.numberedArea number paddr size primMode attributes extended =
      .ok ⟨type, paddr, size, primMode, attributes, extended⟩ := by
  obtain ⟨limit, resolved, _⟩ := regionEnd_of_covers covered
  rw [numberedArea, isType, Outcome.ok_bind, sizedArea, resolved]
  rfl

/-- An area of a known type needs an address in a buffer. -/
theorem numberedArea_of_not_covers
    {number : Int}
    {type : AreaType}
    (isType : AreaType.ofNumber number = .ok type)
    {paddr : Int}
    (uncovered : ¬memory.Covers paddr)
    (size primMode attributes : Int)
    (extended : Bool) :
    memory.numberedArea number paddr size primMode attributes extended =
      .error (.unmapped paddr) := by
  rw [numberedArea, isType, Outcome.ok_bind, sizedArea,
    regionEnd_of_not_covers uncovered]
  rfl

/-- A number that no type has is refused, whatever the address. -/
theorem numberedArea_of_badType
    {number : Int}
    (bad : AreaType.ofNumber number = .error .badValue)
    (paddr size primMode attributes : Int)
    (extended : Bool) :
    memory.numberedArea number paddr size primMode attributes extended =
      .error .badValue := by
  rw [numberedArea, bad]
  rfl

end Memory

namespace AreaRequest

/-- The address of a request. -/
def paddr : AreaRequest → Int
  | .sized _ paddr _ _ _ _ => paddr
  | .toEnd _ paddr _ _ _ => paddr
  | .subList paddr _ => paddr
  | .compressedList paddr _ => paddr
  | .shaderRecord paddr _ _ => paddr
  | .program _ paddr => paddr

/-- The number that a request gives for the type. -/
def typeNumber? : AreaRequest → Option Int
  | .sized number _ _ _ _ _ => some number
  | .toEnd number _ _ _ _ => some number
  | .program (.numbered number) _ => some number
  | _ => none

/-- The area that a request asks for. -/
inductive AsksFor (memory : Memory) : AreaRequest → Area → Prop where
  | sized
      {number paddr size primMode attributes : Int}
      {extended : Bool}
      {type : AreaType}
      (isType : AreaType.ofNumber number = .ok type)
      (covered : memory.Covers paddr) :
      AsksFor memory
        (.sized number paddr size primMode attributes extended)
        ⟨type, paddr, size, primMode, attributes, extended⟩
  | toEnd
      {number paddr limit primMode attributes : Int}
      {extended : Bool}
      {type : AreaType}
      (isType : AreaType.ofNumber number = .ok type)
      (resolved : memory.regionEnd paddr = .ok limit) :
      AsksFor memory (.toEnd number paddr primMode attributes extended)
        ⟨type, paddr, limit - paddr, primMode, attributes, extended⟩
  | subList
      {paddr limit primMode : Int}
      (resolved : memory.regionEnd paddr = .ok limit) :
      AsksFor memory (.subList paddr primMode)
        ⟨.subList, paddr, limit - paddr, primMode, 0, false⟩
  | compressedList
      {paddr limit primMode : Int}
      (resolved : memory.regionEnd paddr = .ok limit) :
      AsksFor memory (.compressedList paddr primMode)
        ⟨.compressedList, paddr, limit - paddr, primMode, 0, false⟩
  | shaderRecord
      {paddr attributes : Int}
      (covered : memory.Covers paddr) :
      AsksFor memory (.shaderRecord paddr attributes false)
        ⟨.shaderRecord, paddr, 36 + attributes * 8, unsetPrimMode,
          attributes, false⟩
  | program
      {type : AreaType}
      {paddr : Int}
      {code : Window}
      (shown : memory.view paddr none = .ok code) :
      AsksFor memory (.program (.named type) paddr)
        ⟨type, paddr, (Shader.extent code).size, unsetPrimMode, 0, false⟩
  | numberedProgram
      {number paddr : Int}
      {type : AreaType}
      {code : Window}
      (isType : AreaType.ofNumber number = .ok type)
      (shown : memory.view paddr none = .ok code)
      (ends : (Shader.extent code).found = true) :
      AsksFor memory (.program (.numbered number) paddr)
        ⟨type, paddr, (Shader.extent code).size, unsetPrimMode, 0, false⟩

/-- Why a request can be refused. -/
inductive IsRefused (memory : Memory) : AreaRequest → Fault → Prop where
  | unmapped
      {request : AreaRequest}
      (uncovered : ¬memory.Covers request.paddr) :
      IsRefused memory request (.unmapped request.paddr)
  | badType
      {request : AreaRequest}
      {number : Int}
      (isNumber : request.typeNumber? = some number)
      (outside : number < 0 ∨ 6 ≤ number) :
      IsRefused memory request .badValue
  /-- A number has no name under which a missing end could be listed. -/
  | namelessType
      {number paddr : Int}
      {code : Window}
      (shown : memory.view paddr none = .ok code)
      (endless : (Shader.extent code).found = false) :
      IsRefused memory (.program (.numbered number) paddr) .noAttribute
  | extendedRecord
      {paddr attributes : Int} :
      IsRefused memory (.shaderRecord paddr attributes true)
        .extendedShaderRecord

variable {memory : Memory} {request : AreaRequest} {area : Area}

/-- An area is granted at the address it was asked for at. -/
theorem AsksFor.paddr_eq
    (asks : request.AsksFor memory area) :
    area.paddr = request.paddr := by
  cases asks <;> rfl

theorem AsksFor.covers
    (asks : request.AsksFor memory area) :
    memory.Covers request.paddr := by
  cases asks with
  | sized _ covered | shaderRecord covered =>
      exact covered
  | toEnd _ resolved | subList resolved | compressedList resolved =>
      exact Memory.covers_of_regionEnd resolved
  | program shown | numberedProgram _ shown =>
      exact Memory.covers_of_view shown

theorem AsksFor.number_inside
    (asks : request.AsksFor memory area)
    {number : Int}
    (isNumber : request.typeNumber? = some number) :
    0 ≤ number ∧ number < 6 := by
  cases asks with
  | sized isType | toEnd isType | numberedProgram isType =>
      cases isNumber
      rcases AreaType.ofNumber_cases number with
        ⟨inside, _⟩ | ⟨_, bad⟩
      · exact inside
      · rw [bad] at isType
        contradiction
  | subList | compressedList | shaderRecord | program =>
      contradiction

/-- What asks for an area is not refused. -/
theorem AsksFor.not_isRefused
    (asks : request.AsksFor memory area)
    (fault : Fault) :
    ¬request.IsRefused memory fault := by
  intro refused
  cases refused with
  | unmapped uncovered =>
      exact uncovered asks.covers
  | badType isNumber outside =>
      have inside := asks.number_inside isNumber
      omega
  | namelessType shown endless =>
      cases asks with
      | numberedProgram _ isShown ends =>
          rw [shown] at isShown
          cases isShown
          rw [endless] at ends
          contradiction
  | extendedRecord =>
      cases asks

/-! ## Requests that are carried out -/

/--
How a request can end: with the area that it asks for, or with a refusal and
nothing else.
-/
inductive Ends
    (memory : Memory)
    (request : AreaRequest)
    (run : Traced Area) :
    Prop where
  | granted
      {area : Area}
      (asks : request.AsksFor memory area)
      (outcome : run.outcome = .ok area)
      (requests : Event.requests run.events = [area])
  | refused
      {fault : Fault}
      (refusal : request.IsRefused memory fault)
      (outcome : run.outcome = .error fault)
      (requests : Event.requests run.events = [])

/-- A request may end with the area it asks for. -/
theorem ends_grant
    (asks : request.AsksFor memory area) :
    request.Ends memory (grant (.ok area)) :=
  .granted asks rfl rfl

theorem ends_grant_error
    {fault : Fault}
    (refusal : request.IsRefused memory fault) :
    request.Ends memory (grant (.error fault)) :=
  .refused refusal rfl rfl

/--
A request that gives its type by number ends as it should, if an area of that
type is what it asks for.
-/
theorem ends_numberedArea
    {number size primMode attributes : Int}
    {extended : Bool}
    (isNumber : request.typeNumber? = some number)
    (asks :
      ∀ type,
        AreaType.ofNumber number = .ok type →
        memory.Covers request.paddr →
        request.AsksFor memory
          ⟨type, request.paddr, size, primMode, attributes, extended⟩) :
    request.Ends memory
      (grant
        (memory.numberedArea number request.paddr size primMode attributes
          extended)) := by
  rcases AreaType.ofNumber_cases number with
    ⟨_, type, isType⟩ | ⟨outside, bad⟩
  · by_cases covered : memory.Covers request.paddr
    · rw [Memory.numberedArea_eq isType covered]
      exact ends_grant (asks type isType covered)
    · rw [Memory.numberedArea_of_not_covers isType covered]
      exact ends_grant_error (.unmapped covered)
  · rw [Memory.numberedArea_of_badType bad]
    exact ends_grant_error (.badType isNumber outside)

/-- A request that reaches to the end of a buffer ends as it should. -/
theorem ends_areaToEnd
    (type : AreaType)
    {primMode : Int}
    (asks :
      ∀ limit,
        memory.regionEnd request.paddr = .ok limit →
        request.AsksFor memory
          ⟨type, request.paddr, limit - request.paddr, primMode, 0,
            false⟩) :
    request.Ends memory
      (grant (memory.areaToEnd type request.paddr primMode)) := by
  cases resolved : memory.regionEnd request.paddr with
  | error fault =>
      obtain rfl := Memory.eq_unmapped_of_regionEnd resolved
      rw [Memory.areaToEnd, resolved]
      exact ends_grant_error
        (.unmapped (Memory.not_covers_of_regionEnd resolved))
  | ok limit =>
      rw [Memory.areaToEnd, resolved]
      exact ends_grant (asks limit resolved)

end AreaRequest

namespace Shader

variable {memory : Memory} {paddr : Int}

/-- What is listed about a program: whether its end is missing. -/
def extentEvents
    (type : AreaType)
    (paddr : Int)
    (code : Window) : List Event :=
  if (extent code).found then [] else [missingEndEvent type paddr]

/-- At a covered address, a program is asked for as far as it extends. -/
theorem programAt_eq
    (type : AreaType)
    {code : Window}
    (shown : memory.view paddr none = .ok code) :
    programAt memory type paddr =
      ⟨extentEvents type paddr code ++
          [.request
            ⟨type, paddr, (extent code).size, unsetPrimMode, 0, false⟩],
        .ok
          ⟨type, paddr, (extent code).size, unsetPrimMode, 0, false⟩⟩ := by
  obtain ⟨limit, resolved, _⟩ :=
    Memory.regionEnd_of_covers (Memory.covers_of_view shown)
  have areaIs :
      memory.sizedArea type paddr (extent code).size =
        .ok
          ⟨type, paddr, (extent code).size, unsetPrimMode, 0, false⟩ := by
    rw [Memory.sizedArea, resolved]
    rfl
  rw [programAt, shown, Traced.ofExcept_ok_bind, extentEvents]
  cases found : (extent code).found <;> simp [found, areaIs]

/-- A program whose type is given by number needs an end as well. -/
theorem numberedProgramAt_eq
    (number : Int)
    {code : Window}
    (shown : memory.view paddr none = .ok code) :
    numberedProgramAt memory number paddr =
      AreaRequest.grant
        (if (extent code).found then
          memory.numberedArea number paddr (extent code).size unsetPrimMode
            0 false
        else
          .error .noAttribute) := by
  rw [numberedProgramAt, shown, Traced.ofExcept_ok_bind]
  cases found : (extent code).found <;> simp [found, AreaRequest.grant]

theorem programAt_of_error
    (type : AreaType)
    {fault : Fault}
    (fails : memory.view paddr none = .error fault) :
    programAt memory type paddr = ⟨[], .error fault⟩ := by
  rw [programAt, fails, Traced.ofExcept_error_bind]

theorem numberedProgramAt_of_error
    (number : Int)
    {fault : Fault}
    (fails : memory.view paddr none = .error fault) :
    numberedProgramAt memory number paddr = ⟨[], .error fault⟩ := by
  rw [numberedProgramAt, fails, Traced.ofExcept_error_bind]

end Shader

namespace AreaRequest

/-- A request for an area to the end of its buffer ends as it should. -/
theorem ends_numberedAreaToEnd
    (number paddr primMode attributes : Int)
    (extended : Bool) :
    (toEnd number paddr primMode attributes extended).Ends memory
      (grant
        (memory.numberedAreaToEnd number paddr primMode attributes
          extended)) := by
  rw [Memory.numberedAreaToEnd]
  cases resolved : memory.regionEnd paddr with
  | error fault =>
      obtain rfl := Memory.eq_unmapped_of_regionEnd resolved
      exact ends_grant_error
        (.unmapped (Memory.not_covers_of_regionEnd resolved))
  | ok limit =>
      exact @ends_numberedArea memory
        (.toEnd number paddr primMode attributes extended) number
        (limit - paddr) primMode attributes extended rfl
        (fun type isType _ => .toEnd isType resolved)

theorem ends_shaderRecordAt
    (paddr attributes : Int)
    (extended : Bool) :
    (shaderRecord paddr attributes extended).Ends memory
      (grant (memory.shaderRecordAt paddr attributes extended)) := by
  rw [Memory.shaderRecordAt, sizeOfShaderRecord]
  cases extended with
  | true =>
      exact ends_grant_error .extendedRecord
  | false =>
      simp only [Bool.false_eq_true, if_false, Outcome.ok_bind,
        Memory.sizedArea]
      by_cases covered : memory.Covers paddr
      · obtain ⟨limit, resolved, _⟩ :=
          Memory.regionEnd_of_covers covered
        rw [resolved]
        exact ends_grant (.shaderRecord covered)
      · rw [Memory.regionEnd_of_not_covers covered]
        exact ends_grant_error (.unmapped covered)

/-- A request for a program of a known type ends as it should. -/
theorem ends_programAt
    (type : AreaType)
    (paddr : Int) :
    (program (.named type) paddr).Ends memory
      (Shader.programAt memory type paddr) := by
  cases shown : memory.view paddr none with
  | error fault =>
      obtain rfl := Memory.eq_unmapped_of_view shown
      rw [Shader.programAt_of_error type shown]
      exact .refused (.unmapped (Memory.not_covers_of_view shown)) rfl rfl
  | ok code =>
      rw [Shader.programAt_eq type shown]
      refine .granted (.program shown) rfl ?_
      rw [Shader.extentEvents]
      split <;> rfl

/-- A request for a program whose type is a number ends as it should. -/
theorem ends_numberedProgramAt
    (number paddr : Int) :
    (program (.numbered number) paddr).Ends memory
      (Shader.numberedProgramAt memory number paddr) := by
  cases shown : memory.view paddr none with
  | error fault =>
      obtain rfl := Memory.eq_unmapped_of_view shown
      rw [Shader.numberedProgramAt_of_error number shown]
      exact .refused (.unmapped (Memory.not_covers_of_view shown)) rfl rfl
  | ok code =>
      rw [Shader.numberedProgramAt_eq number shown]
      split
      · next ends =>
          exact @ends_numberedArea memory (.program (.numbered number) paddr)
            number (Shader.extent code).size unsetPrimMode 0 false rfl
            (fun type isType _ => .numberedProgram isType shown ends)
      · next endless =>
          rw [Bool.not_eq_true] at endless
          exact ends_grant_error (.namelessType shown endless)

/-- Every request ends with the area that it asks for, or is refused. -/
theorem ends_carryOut
    (memory : Memory)
    (request : AreaRequest) :
    request.Ends memory (request.carryOut memory) := by
  cases request with
  | sized number paddr size primMode attributes extended =>
      exact @ends_numberedArea memory
        (.sized number paddr size primMode attributes extended) number
        size primMode attributes extended rfl
        (fun type isType covered => .sized isType covered)
  | toEnd number paddr primMode attributes extended =>
      exact ends_numberedAreaToEnd number paddr primMode attributes extended
  | subList paddr primMode =>
      exact @ends_areaToEnd memory (.subList paddr primMode) .subList primMode
        (fun limit resolved => .subList resolved)
  | compressedList paddr primMode =>
      exact @ends_areaToEnd memory (.compressedList paddr primMode)
        .compressedList primMode
        (fun limit resolved => .compressedList resolved)
  | shaderRecord paddr attributes extended =>
      exact ends_shaderRecordAt paddr attributes extended
  | program type paddr =>
      cases type with
      | named type => exact ends_programAt type paddr
      | numbered number => exact ends_numberedProgramAt number paddr

end AreaRequest

end VideoCore
