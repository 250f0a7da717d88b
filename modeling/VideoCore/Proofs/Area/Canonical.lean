import VideoCore.Area.Reference
import VideoCore.Proofs.Memory.Resolution
import VideoCore.Shader.Program

namespace VideoCore

/-!
# Canonical areas

Decoding creates areas of a few shapes only: type, address, format and number
of attributes leave no choice for the rest.  That is why only so many areas can
be registered, however the lists refer to each other.
-/

/-- The size that decoding gives to an area. -/
def Memory.extentOf
    (memory : Memory)
    (type : AreaType)
    (paddr attributes : Int) : Int :=
  match type with
  | .subList => (memory.regionEnd paddr).toOption.getD 0 - paddr
  | .compressedList => (memory.regionEnd paddr).toOption.getD 0 - paddr
  | .shaderRecord => shaderRecordSize + attributes * shaderAttributeSize
  | _ =>
      (memory.view paddr none).toOption.elim 0 fun code =>
        (Shader.extent code).size

/-- An area to the end of its buffer exists if its address is mapped. -/
theorem Memory.areaToEnd_cases
    (memory : Memory)
    (type : AreaType)
    (paddr primMode : Int) :
    (∃ limit,
      memory.regionEnd paddr = .ok limit ∧
        memory.areaToEnd type paddr primMode =
          .ok ⟨type, paddr, limit - paddr, primMode, 0, false⟩) ∨
      memory.areaToEnd type paddr primMode =
        .error (.unmapped paddr) := by
  by_cases covered : memory.Covers paddr
  · obtain ⟨limit, resolved, _⟩ := Memory.regionEnd_of_covers covered
    refine Or.inl ⟨limit, resolved, ?_⟩
    rw [areaToEnd, resolved]
    rfl
  · refine Or.inr ?_
    rw [areaToEnd, Memory.regionEnd_of_not_covers covered]
    rfl

namespace Area

/-- The areas that decoding can ask for. -/
inductive Canonical (memory : Memory) : Area → Prop where
  /-- A list of packets up to the end of its buffer. -/
  | subList
      {paddr limit primMode : Int}
      (resolved : memory.regionEnd paddr = .ok limit)
      (lower : 0 ≤ primMode)
      (upper : primMode ≤ 255) :
      Canonical memory
        ⟨.subList, paddr, limit - paddr, primMode, 0, false⟩
  /-- Compressed index data up to the end of its buffer. -/
  | compressedList
      {paddr limit : Int}
      (resolved : memory.regionEnd paddr = .ok limit)
      (aligned : 32 ∣ paddr)
      (lower : 0 ≤ paddr)
      (upper : paddr < 2 ^ 32) :
      Canonical memory
        ⟨.compressedList, paddr, limit - paddr, trianglesPrimMode, 0, false⟩
  /-- A shader record with its attributes, which may extend past its buffer. -/
  | shaderRecord
      {paddr limit attributes : Int}
      (resolved : memory.regionEnd paddr = .ok limit)
      (aligned : 16 ∣ paddr)
      (lower : 1 ≤ attributes)
      (upper : attributes ≤ 8) :
      Canonical memory
        ⟨.shaderRecord, paddr,
          shaderRecordSize + attributes * shaderAttributeSize,
          unsetPrimMode, attributes, false⟩
  /-- A program, as far as it extends. -/
  | program
      {type : AreaType}
      {paddr : Int}
      {code : Window}
      (isCode : type.isCode = true)
      (shown : memory.view paddr none = .ok code) :
      Canonical memory
        ⟨type, paddr, (Shader.extent code).size, unsetPrimMode, 0, false⟩

/-- What tells the areas of one registry apart. -/
def key (area : Area) : AreaType × Int × Int × Int :=
  (area.type, area.paddr, area.primMode, area.attributes)

/-- A number for what the address of a canonical area leaves open. -/
def slot (area : Area) : Nat :=
  match area.type with
  | .subList => area.primMode.toNat
  | .compressedList => 256
  | .shaderRecord => 256 + area.attributes.toNat
  | .coordinateShader => 265
  | .vertexShader => 266
  | .fragmentShader => 267

/-- Type, format and number of attributes, given by a slot. -/
def choice (slot : Nat) : AreaType × Int × Int :=
  if slot < 256 then (.subList, slot, 0)
  else if slot = 256 then (.compressedList, trianglesPrimMode, 0)
  else if slot < 265 then (.shaderRecord, unsetPrimMode, (slot : Int) - 256)
  else if slot = 265 then (.coordinateShader, unsetPrimMode, 0)
  else if slot = 266 then (.vertexShader, unsetPrimMode, 0)
  else (.fragmentShader, unsetPrimMode, 0)

namespace Canonical

variable {memory : Memory} {area first second : Area}

theorem covers
    (canonical : Canonical memory area) :
    memory.Covers area.paddr := by
  cases canonical with
  | subList resolved _ _ =>
      exact Memory.covers_of_regionEnd resolved
  | compressedList resolved _ _ _ =>
      exact Memory.covers_of_regionEnd resolved
  | shaderRecord resolved _ _ _ =>
      exact Memory.covers_of_regionEnd resolved
  | program _ shown =>
      exact Memory.covers_of_view shown

/-- The size of a canonical area is no choice of its own. -/
theorem size_eq
    (canonical : Canonical memory area) :
    area.size =
      memory.extentOf area.type area.paddr area.attributes := by
  cases canonical with
  | subList resolved _ _ =>
      simp [Memory.extentOf, resolved, Except.toOption]
  | compressedList resolved _ _ _ =>
      simp [Memory.extentOf, resolved, Except.toOption]
  | shaderRecord =>
      rfl
  | @program type paddr code isCode shown =>
      cases type with
      | coordinateShader | vertexShader | fragmentShader =>
          simp [Memory.extentOf, shown, Except.toOption]
      | shaderRecord | subList | compressedList =>
          contradiction

theorem not_extended
    (canonical : Canonical memory area) :
    area.extended = false := by
  cases canonical <;> rfl

/-- The key of a canonical area determines it. -/
theorem eq_of_key
    (firstCanonical : Canonical memory first)
    (secondCanonical : Canonical memory second)
    (sameKey : first.key = second.key) :
    first = second := by
  simp only [key, Prod.mk.injEq] at sameKey
  obtain ⟨sameType, sameAddress, sameMode, sameCount⟩ := sameKey
  have sameSize : first.size = second.size := by
    rw [firstCanonical.size_eq, secondCanonical.size_eq,
      sameType, sameAddress, sameCount]
  have sameEncoding : first.extended = second.extended := by
    rw [firstCanonical.not_extended, secondCanonical.not_extended]
  cases first
  cases second
  simp_all

/-- The slot of a canonical area tells type, format and number of attributes. -/
theorem choice_slot
    (canonical : Canonical memory area) :
    choice area.slot =
      (area.type, area.primMode, area.attributes) := by
  cases canonical with
  | @subList _ _ primMode _ lower upper =>
      have small : primMode.toNat < 256 := by omega
      have same : (primMode.toNat : Int) = primMode := by omega
      simp [slot, choice, small, same]
  | compressedList =>
      rfl
  | @shaderRecord _ _ attributes _ _ lower upper =>
      have small : 256 + attributes.toNat < 265 := by omega
      have large : ¬256 + attributes.toNat < 256 := by omega
      have other : 256 + attributes.toNat ≠ 256 := by omega
      have same :
          ((256 + attributes.toNat : Nat) : Int) - 256 = attributes := by
        omega
      simp only [slot, choice, small, large, other, if_true, if_false,
        same]
  | @program type _ _ isCode _ =>
      cases type with
      | coordinateShader | vertexShader | fragmentShader =>
          rfl
      | shaderRecord | subList | compressedList =>
          contradiction

/-- Address and slot determine a canonical area. -/
theorem eq_of_slot
    (firstCanonical : Canonical memory first)
    (secondCanonical : Canonical memory second)
    (sameAddress : first.paddr = second.paddr)
    (sameSlot : first.slot = second.slot) :
    first = second := by
  have sameChoice := congrArg choice sameSlot
  rw [firstCanonical.choice_slot, secondCanonical.choice_slot]
    at sameChoice
  simp only [Prod.mk.injEq] at sameChoice
  obtain ⟨sameType, sameMode, sameCount⟩ := sameChoice
  apply eq_of_key firstCanonical secondCanonical
  simp only [key, sameType, sameAddress, sameMode, sameCount]

end Canonical

end Area

end VideoCore
