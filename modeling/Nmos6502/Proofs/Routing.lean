import Nmos6502.Device.Peripheral
import Nmos6502.Memory.Mapped
import Nmos6502.Proofs.AlikeSteps
import Nmos6502.Proofs.MappedWrite

/-!
Which device answers for an address. Devices that overlap are turned away, so that no address has
two, and neither the order in which devices were added nor those that were turned away can be
told from what the memory does.
-/

namespace Nmos6502

structure Span where
  base : UInt16
  limit : UInt32

namespace Span

def size (span : Span) : UInt32 :=
  span.limit - span.base.toUInt32

/-- Neither range begins before the other one ends. -/
def Apart (first second : Span) : Prop :=
  ¬(second.base.toUInt32 < first.limit ∧ first.base.toUInt32 < second.limit)

theorem Apart.symm {first second : Span} (apart : first.Apart second) : second.Apart first :=
  fun overlapping => apart overlapping.symm

end Span

namespace Mapping

variable {δ : Type}

def span (mapping : Mapping δ) : Span :=
  ⟨mapping.base, mapping.limit⟩

theorem overlaps_eq_false_iff (mapping : Mapping δ) (base : UInt16) (limit : UInt32) :
    mapping.overlaps base limit = false ↔ mapping.span.Apart ⟨base, limit⟩ := by
  rw [Bool.eq_false_iff, ne_eq, overlaps, Bool.and_eq_true, decide_eq_true_eq, decide_eq_true_eq]
  rfl

theorem alone_of_apart {first second : Mapping δ} (apart : first.span.Apart second.span)
    {address : UInt16} (answers : first.contains address = true) :
    second.contains address = false := by
  rw [Bool.eq_false_iff]
  intro both
  rw [contains_iff] at answers both
  apply apart
  simp only [span, UInt32.lt_iff_toNat_lt, UInt16.toNat_toUInt32]
  omega

theorem offset_lt_size {mapping : Mapping δ} {address : UInt16}
    (answers : mapping.contains address = true) :
    (mapping.offset address).toNat < mapping.size.toNat := by
  rw [toNat_offset answers]
  rw [contains_iff] at answers
  have order : mapping.base.toUInt32 ≤ mapping.limit := by
    rw [UInt32.le_iff_toNat_le, UInt16.toNat_toUInt32]
    omega
  rw [size, UInt32.toNat_sub_of_le _ _ order, UInt16.toNat_toUInt32]
  omega

variable [Device δ]

def take (address : UInt16) (value : UInt8) (mapping : Mapping δ) : Mapping δ :=
  if mapping.contains address then
    { mapping with device := Device.write mapping.device (mapping.offset address) value }
  else mapping

end Mapping

/-! Memories in which all devices are apart. -/

namespace MappedMemory

variable {δ : Type}

def spans (memory : MappedMemory δ) : List Span :=
  memory.mappings.map Mapping.span

def Apart (mappings : List (Mapping δ)) : Prop :=
  mappings.Pairwise fun first second => first.span.Apart second.span

theorem apart_iff (mappings : List (Mapping δ)) :
    Apart mappings ↔ (mappings.map Mapping.span).Pairwise Span.Apart :=
  List.pairwise_map.symm

theorem apart_mappings_iff (memory : MappedMemory δ) :
    Apart memory.mappings ↔ memory.spans.Pairwise Span.Apart :=
  apart_iff memory.mappings

theorem Apart.perm {left right : List (Mapping δ)} (apart : Apart left) (perm : left.Perm right) :
    Apart right :=
  perm.pairwise apart Span.Apart.symm

/-- A device that answers for an address is the only one that does. -/
theorem Apart.others {earlier later : List (Mapping δ)} {mapping : Mapping δ}
    (apart : Apart (earlier ++ mapping :: later)) {address : UInt16}
    (answers : mapping.contains address = true) :
    ∀ other ∈ earlier ++ later, other.contains address = false := by
  have first : Apart (mapping :: (earlier ++ later)) :=
    (List.pairwise_middle Span.Apart.symm).mp apart
  intro other member
  exact Mapping.alone_of_apart ((List.pairwise_cons.mp first).1 other member) answers

theorem Apart.find?_eq {mappings : List (Mapping δ)} (apart : Apart mappings)
    {mapping : Mapping δ} (member : mapping ∈ mappings) {address : UInt16}
    (answers : mapping.contains address = true) :
    mappings.find? (·.contains address) = some mapping := by
  obtain ⟨earlier, later, rfl⟩ := List.append_of_mem member
  refine List.find?_eq_some_iff_append.mpr ⟨answers, earlier, later, rfl, fun other among => ?_⟩
  rw [apart.others answers other (List.mem_append_left _ among)]
  rfl

theorem Apart.find?_perm {left right : List (Mapping δ)} (apart : Apart left)
    (perm : left.Perm right) (address : UInt16) :
    left.find? (·.contains address) = right.find? (·.contains address) := by
  rcases found : left.find? (·.contains address) with _ | mapping
  · rw [found, eq_comm, List.find?_eq_none]
    rw [List.find?_eq_none] at found
    intro mapping member
    exact found mapping (perm.mem_iff.mpr member)
  · have member := perm.mem_iff.mp (List.mem_of_find?_eq_some found)
    have answers : mapping.contains address = true := by simpa using List.find?_some found
    rw [found, (apart.perm perm).find?_eq member answers]

variable [Device δ]

theorem map_span_writeDevice (address : UInt16) (value : UInt8) (mappings : List (Mapping δ)) :
    (writeDevice address value mappings).map Mapping.span = mappings.map Mapping.span := by
  induction mappings with
  | nil => rfl
  | cons mapping rest ih =>
      simp only [writeDevice]
      split
      · rfl
      · rw [List.map_cons, List.map_cons, ih]

theorem map_take_eq_self {address : UInt16} {mappings : List (Mapping δ)}
    (silent : ∀ mapping ∈ mappings, mapping.contains address = false) (value : UInt8) :
    mappings.map (Mapping.take address value) = mappings := by
  have same : ∀ mapping ∈ mappings, mapping.take address value = mapping := by
    intro mapping member
    rw [Mapping.take, silent mapping member]
    rfl
  rw [List.map_congr_left same, List.map_id']

/-- A write asks every device whether it answers, and no two do. -/
theorem Apart.writeDevice_eq_map {mappings : List (Mapping δ)} (apart : Apart mappings)
    (address : UInt16) (value : UInt8) :
    writeDevice address value mappings = mappings.map (Mapping.take address value) := by
  induction mappings with
  | nil => rfl
  | cons mapping rest ih =>
      obtain ⟨apartFromRest, restApart⟩ := List.pairwise_cons.mp apart
      rw [writeDevice, List.map_cons, Mapping.take]
      split
      · rename_i answers
        have silent : ∀ other ∈ rest, other.contains address = false := fun other member =>
          Mapping.alone_of_apart (apartFromRest other member) answers
        rw [map_take_eq_self silent]
      · rw [ih restApart]

theorem spans_write (memory : MappedMemory δ) (address : UInt16) (value : UInt8) :
    (memory.write address value).spans = memory.spans := by
  simp only [write]
  split
  · split
    · exact map_span_writeDevice address value memory.mappings
    · exact congrArg (List.map Mapping.span) (memory.raise_mappings _)
  · exact congrArg (List.map Mapping.span) (memory.raise_mappings _)

theorem spans_reset (memory : MappedMemory δ) : memory.reset.spans = memory.spans := by
  simp only [spans, reset, List.map_map]
  rfl

end MappedMemory

/-- What a bus goes on to be whatever is asked of it. -/
structure Bus.Keeps {β : Type} [Bus β] (Holds : β → Prop) : Prop where
  write : ∀ {memory}, Holds memory → ∀ address value, Holds (Bus.write memory address value)
  clearFault : ∀ {memory}, Holds memory → Holds (Bus.clearFault memory)
  reset : ∀ {memory}, Holds memory → Holds (Bus.reset memory)

theorem Bus.Keeps.matches {β : Type} [Bus β] {Holds : β → Prop} (keeps : Bus.Keeps Holds) :
    Bus.Matches fun left right : β => left = right ∧ Holds left where
  read same address := by rw [same.1]
  write same address value := ⟨by rw [same.1], keeps.write same.2 address value⟩
  interruptLine same := by rw [same.1]
  peek same address := by rw [same.1]
  fault same := by rw [same.1]
  clearFault same := ⟨by rw [same.1], keeps.clearFault same.2⟩
  reset same := ⟨by rw [same.1], keeps.reset same.2⟩

theorem Cpu.carryOut_keeps {β : Type} [Bus β] {Holds : β → Prop} (keeps : Bus.Keeps Holds)
    {cpu : Cpu β} (holds : Holds cpu.memory) (operation : Operation) :
    Holds (cpu.carryOut operation).2.memory := by
  have alike : Alike (fun left right => left = right ∧ Holds left) Eq cpu (cpu.onto cpu.memory) :=
    .of_onto ⟨rfl, holds⟩
  exact (alike.carryOut keeps.matches (fun _ => rfl) operation).2.memory.2

theorem MappedMemory.keeps_spans {δ : Type} [Device δ] (spans : List Span) :
    Bus.Keeps fun memory : MappedMemory δ => memory.spans = spans where
  write same address value := (spans_write _ address value).trans same
  clearFault same := same
  reset same := (spans_reset _).trans same

namespace MappedMemory

variable {δ : Type}

structure Shuffled (left right : MappedMemory δ) : Prop where
  apart : Apart left.mappings
  mappings : left.mappings.Perm right.mappings
  unmappedValue : left.unmappedValue = right.unmappedValue
  strictWrites : left.strictWrites = right.strictWrites
  fault : left.fault = right.fault

namespace Shuffled

variable {left right : MappedMemory δ}

theorem find? (shuffled : Shuffled left right) (address : UInt16) :
    left.find? address = right.find? address :=
  shuffled.apart.find?_perm shuffled.mappings address

theorem raise (shuffled : Shuffled left right) (fault : BusFault) :
    Shuffled (left.raise fault) (right.raise fault) := by
  simp only [MappedMemory.raise, shuffled.strictWrites, shuffled.fault]
  split
  · exact { shuffled with strictWrites := rfl, fault := rfl }
  · exact shuffled

variable [Device δ]

theorem peek (shuffled : Shuffled left right) (address : UInt16) :
    left.peek address = right.peek address := by
  rw [MappedMemory.peek, MappedMemory.peek, shuffled.find?]

theorem write (shuffled : Shuffled left right) (address : UInt16) (value : UInt8) :
    Shuffled (left.write address value) (right.write address value) := by
  simp only [MappedMemory.write, ← shuffled.find?]
  split
  · split
    · have rightApart := shuffled.apart.perm shuffled.mappings
      have stillApart : Apart (writeDevice address value left.mappings) := by
        rw [apart_iff, map_span_writeDevice, ← apart_iff]
        exact shuffled.apart
      have stillSame : (writeDevice address value left.mappings).Perm
          (writeDevice address value right.mappings) := by
        rw [shuffled.apart.writeDevice_eq_map, rightApart.writeDevice_eq_map]
        exact shuffled.mappings.map _
      exact { shuffled with apart := stillApart, mappings := stillSame }
    · exact shuffled.raise _
  · exact shuffled.raise _

theorem reset (shuffled : Shuffled left right) : Shuffled left.reset right.reset where
  apart := by
    rw [apart_mappings_iff, spans_reset, ← apart_mappings_iff]
    exact shuffled.apart
  mappings := shuffled.mappings.map _
  unmappedValue := shuffled.unmappedValue
  strictWrites := shuffled.strictWrites
  fault := rfl

end Shuffled

variable [Device δ]

theorem matches_shuffled : Bus.Matches (Shuffled : MappedMemory δ → MappedMemory δ → Prop) where
  read shuffled address := by
    simp only [Bus.read, MappedMemory.read, shuffled.peek, shuffled.unmappedValue]
  write shuffled address value := shuffled.write address value
  interruptLine shuffled := shuffled.mappings.any_eq
  peek shuffled address := shuffled.peek address
  fault shuffled := shuffled.fault
  clearFault shuffled := { shuffled with fault := rfl }
  reset shuffled := shuffled.reset

/-! One address. -/

structure Bare (memory : MappedMemory δ) (address : UInt16) : Prop where
  unclaimed : ∀ mapping ∈ memory.mappings, mapping.contains address = false
  peek : Bus.peek memory address = none
  read : Bus.read memory address = memory.unmappedValue
  write : ∀ value, Bus.write memory address value = memory.raise (.unmapped address)

/-- Whatever is done at the address is done to one device, and none of the others has a part in
it. -/
structure Routes (memory : MappedMemory δ) (address : UInt16) (earlier : List (Mapping δ))
    (mapping : Mapping δ) (later : List (Mapping δ)) : Prop where
  mappings : memory.mappings = earlier ++ mapping :: later
  claimed : mapping.contains address = true
  others : ∀ other ∈ earlier ++ later, other.contains address = false
  offset : (mapping.offset address).toNat = address.toNat - mapping.base.toNat
  inside : (mapping.offset address).toNat < mapping.size.toNat
  peek : Bus.peek memory address = some (Device.read mapping.device (mapping.offset address))
  read : Bus.read memory address = Device.read mapping.device (mapping.offset address)
  written : Device.isWritable mapping.device = true → ∀ value,
    Bus.write memory address value =
      { memory with
        mappings := earlier ++ { mapping with
          device := Device.write mapping.device (mapping.offset address) value } :: later }
  refused : Device.isWritable mapping.device = false → ∀ value,
    Bus.write memory address value = memory.raise (.readOnlyWrite address value)

theorem bare_of_find? {memory : MappedMemory δ} {address : UInt16}
    (found : memory.find? address = none) : memory.Bare address where
  unclaimed mapping member := by
    simpa using List.find?_eq_none.mp found mapping member
  peek := by simp [Bus.peek, MappedMemory.peek, found]
  read := by simp [Bus.read, MappedMemory.read, MappedMemory.peek, found]
  write value := by simp [Bus.write, MappedMemory.write, found]

theorem routes_of_find? {memory : MappedMemory δ} (apart : Apart memory.mappings)
    {address : UInt16} {mapping : Mapping δ} (found : memory.find? address = some mapping) :
    ∃ earlier later, memory.Routes address earlier mapping later := by
  obtain ⟨answers, earlier, later, split, -⟩ := List.find?_eq_some_iff_append.mp found
  have others : ∀ other ∈ earlier ++ later, other.contains address = false :=
    Apart.others (split ▸ apart) answers
  rw [List.forall_mem_append] at others
  refine ⟨earlier, later, split, answers, List.forall_mem_append.mpr others,
    Mapping.toNat_offset answers, Mapping.offset_lt_size answers, ?_, ?_, ?_, ?_⟩
  · simp [Bus.peek, MappedMemory.peek, found]
  · simp [Bus.read, MappedMemory.read, MappedMemory.peek, found]
  · intro writable value
    simp only [Bus.write, MappedMemory.write, found, writable, if_true]
    rw [apart.writeDevice_eq_map, split, List.map_append, List.map_cons,
      map_take_eq_self others.1, map_take_eq_self others.2, Mapping.take, if_pos answers]
  · intro readOnly value
    simp [Bus.write, MappedMemory.write, found, readOnly]

theorem routed {memory : MappedMemory δ} (apart : Apart memory.mappings) (address : UInt16) :
    memory.Bare address ∨ ∃ earlier mapping later, memory.Routes address earlier mapping later := by
  rcases found : memory.find? address with _ | mapping
  · exact .inl (bare_of_find? found)
  · obtain ⟨earlier, later, routes⟩ := routes_of_find? apart found
    exact .inr ⟨earlier, mapping, later, routes⟩

end MappedMemory

end Nmos6502
