import Mathlib.Data.Finset.Prod
import Mathlib.Order.Interval.Finset.Nat
import VideoCore.Proofs.Area.Canonical
import VideoCore.Proofs.Area.Registry

namespace VideoCore

/-!
# Counting canonical areas

Address and slot tell canonical areas apart, so there are at most as many of
them as there are pairs of an address and a slot.  An address has 268 slots: one
per format for lists of packets, one for compressed index data, one per number
of attributes for shader records, and one per stage for programs.
-/

/-- The slots that areas of a type can have. -/
def AreaType.slots : AreaType → Finset Nat
  | .subList => Finset.range 256
  | .compressedList => {256}
  | .shaderRecord => Finset.Ico 257 265
  | .coordinateShader => {265}
  | .vertexShader => {266}
  | .fragmentShader => {267}

/-- The slots of all three types of programs. -/
def programSlots : Finset Nat :=
  Finset.Ico 265 268

namespace Area.Canonical

variable {memory : Memory} {area : Area}

theorem slot_mem_slots
    (canonical : Canonical memory area) :
    area.slot ∈ area.type.slots := by
  cases canonical with
  | subList _ lower upper =>
      simp only [slot, AreaType.slots, Finset.mem_range]
      omega
  | compressedList =>
      simp [slot, AreaType.slots]
  | shaderRecord _ _ lower upper =>
      simp only [slot, AreaType.slots, Finset.mem_Ico]
      omega
  | @program type _ _ isCode _ =>
      cases type with
      | coordinateShader | vertexShader | fragmentShader =>
          simp [slot, AreaType.slots]
      | shaderRecord | subList | compressedList =>
          contradiction

end Area.Canonical

namespace AreaType

theorem slots_subset_range
    (type : AreaType) :
    type.slots ⊆ Finset.range 268 := by
  intro slot member
  cases type <;>
    simp only [slots, Finset.mem_range, Finset.mem_Ico,
      Finset.mem_singleton] at member ⊢ <;>
    omega

/-- Programs of all three stages share the slots of programs. -/
theorem slots_subset_programSlots
    {type : AreaType}
    (isCode : type.isCode = true) :
    type.slots ⊆ programSlots := by
  intro slot member
  cases type with
  | coordinateShader | vertexShader | fragmentShader =>
      simp only [slots, Finset.mem_singleton] at member
      simp only [programSlots, Finset.mem_Ico]
      omega
  | shaderRecord | subList | compressedList =>
      contradiction

end AreaType

/-- Whether a registry holds canonical areas only, each of them once. -/
structure Registry.IsValid
    (memory : Memory)
    (registry : Registry) : Prop where
  canonical : ∀ area ∈ registry, Area.Canonical memory area
  unique : registry.Nodup

namespace Registry.IsValid

variable {memory : Memory} {registry : Registry}

theorem nil : IsValid memory [] :=
  ⟨fun _ member => absurd member List.not_mem_nil, List.nodup_nil⟩

/-- Requests for canonical areas leave a registry valid. -/
theorem addAll
    (valid : IsValid memory registry)
    {areas : List Area}
    (canonical : ∀ area ∈ areas, Area.Canonical memory area) :
    IsValid memory (registry.addAll areas) where
  canonical := by
    intro area member
    rcases mem_addAll.mp member with known | requested
    · exact valid.canonical area known
    · exact canonical area requested
  unique := nodup_addAll valid.unique

/-- Leaving areas out keeps a registry valid. -/
theorem filter
    (valid : IsValid memory registry)
    (kept : Area → Bool) :
    IsValid memory (registry.filter kept) where
  canonical := fun area member =>
    valid.canonical area (List.mem_filter.mp member).1
  unique := valid.unique.filter kept

/-- The areas of a valid registry differ in their keys. -/
theorem nodup_map_key
    (valid : IsValid memory registry) :
    (registry.map Area.key).Nodup := by
  apply List.Nodup.map_on ?_ valid.unique
  intro first firstMember second secondMember sameKey
  exact Area.Canonical.eq_of_key (valid.canonical first firstMember)
    (valid.canonical second secondMember) sameKey

/-- Different canonical areas differ in address or slot. -/
theorem length_le_card_mul_card
    (valid : IsValid memory registry)
    (addresses : Finset Int)
    (slots : Finset Nat)
    (inside :
      ∀ area ∈ registry,
        area.paddr ∈ addresses ∧ area.slot ∈ slots) :
    registry.length ≤ addresses.card * slots.card := by
  rw [← List.toFinset_card_of_nodup valid.unique, ← Finset.card_product]
  apply Finset.card_le_card_of_injOn
    fun area => (area.paddr, area.slot)
  · intro area member
    exact Finset.mem_coe.mpr
      (Finset.mem_product.mpr
        (inside area (List.mem_toFinset.mp member)))
  · intro first firstMember second secondMember same
    obtain ⟨sameAddress, sameSlot⟩ := Prod.mk.inj same
    exact Area.Canonical.eq_of_slot
      (valid.canonical first (List.mem_toFinset.mp firstMember))
      (valid.canonical second (List.mem_toFinset.mp secondMember))
      sameAddress sameSlot

/-- There are at most 268 canonical areas per covered address. -/
theorem length_le
    (valid : IsValid memory registry) :
    registry.length ≤ 268 * memory.addresses.card := by
  have bound :=
    valid.length_le_card_mul_card memory.addresses (Finset.range 268)
      fun area member =>
        ⟨Memory.mem_addresses.mpr (valid.canonical area member).covers,
          area.type.slots_subset_range
            (valid.canonical area member).slot_mem_slots⟩
  rw [Finset.card_range] at bound
  omega

/--
At one address there are at most as many areas of some kind as it has slots.
-/
theorem length_filter_le_card
    (valid : IsValid memory registry)
    (addr : Int)
    (kind : AreaType → Bool)
    (slots : Finset Nat)
    (inside : ∀ type, kind type = true → type.slots ⊆ slots) :
    (registry.filter fun area =>
      area.paddr == addr && kind area.type).length ≤ slots.card := by
  have bound :=
    (valid.filter fun area =>
        area.paddr == addr && kind area.type).length_le_card_mul_card
      {addr} slots
      fun area member => by
        obtain ⟨known, selected⟩ := List.mem_filter.mp member
        simp only [Bool.and_eq_true, beq_iff_eq] at selected
        exact ⟨Finset.mem_singleton.mpr selected.1,
          inside area.type selected.2
            (valid.canonical area known).slot_mem_slots⟩
  rwa [Finset.card_singleton, Nat.one_mul] at bound

/-- At one address there are at most as many areas of a type as it has slots. -/
theorem length_filter_type_le_card
    (valid : IsValid memory registry)
    (addr : Int)
    (type : AreaType) :
    (registry.filter fun area =>
      area.paddr == addr && area.type == type).length ≤
        type.slots.card :=
  valid.length_filter_le_card addr (· == type) type.slots
    fun other selected => by rw [eq_of_beq selected]

end Registry.IsValid

/-- Whether no address has more areas than decoding can tell apart. -/
structure Registry.IsBounded
    (memory : Memory)
    (registry : Registry) : Prop where
  areas : registry.length ≤ 268 * memory.addresses.card
  subLists :
    ∀ addr,
      (registry.filter fun area =>
        area.paddr == addr && area.type == .subList).length ≤ 256
  compressedLists :
    ∀ addr,
      (registry.filter fun area =>
        area.paddr == addr && area.type == .compressedList).length ≤ 1
  shaderRecords :
    ∀ addr,
      (registry.filter fun area =>
        area.paddr == addr && area.type == .shaderRecord).length ≤ 8
  programs :
    ∀ addr,
      (registry.filter fun area =>
        area.paddr == addr && area.type.isCode).length ≤ 3

/-- The areas of a valid registry are few. -/
theorem Registry.IsValid.isBounded
    {memory : Memory}
    {registry : Registry}
    (valid : IsValid memory registry) :
    IsBounded memory registry where
  areas := valid.length_le
  subLists := fun addr =>
    (valid.length_filter_type_le_card addr .subList).trans
      (Nat.le_of_eq (Finset.card_range 256))
  compressedLists := fun addr =>
    valid.length_filter_type_le_card addr .compressedList
  shaderRecords := fun addr =>
    valid.length_filter_type_le_card addr .shaderRecord
  programs := fun addr =>
    valid.length_filter_le_card addr AreaType.isCode
      programSlots fun _ isCode =>
        AreaType.slots_subset_programSlots isCode

end VideoCore
