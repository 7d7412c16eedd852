import Nmos6502.Device.Storage
import Nmos6502.Memory.Flat
import Nmos6502.Memory.Mapped
import Nmos6502.Proofs.QuietBus
import Nmos6502.Proofs.Registration
import Nmos6502.Proofs.SessionAlike

/-!
RAM devices that fill the address space between them against plain memory. Wherever the
borders between the devices lie, no host and no program can tell one memory from the other.
-/

namespace Nmos6502

structure PlacedRam where
  base : UInt16
  ram : Ram

namespace PlacedRam

def limit (placed : PlacedRam) : Nat :=
  placed.base.toNat + (Device.size placed.ram).toNat

def Contains (placed : PlacedRam) (address : UInt16) : Prop :=
  placed.base.toNat ≤ address.toNat ∧ address.toNat < placed.limit

def read (placed : PlacedRam) (address : UInt16) : UInt8 :=
  Device.read placed.ram (address - placed.base)

def offer (placed : PlacedRam) : Offer Ram :=
  ⟨placed.base, placed.ram⟩

def mapping (placed : PlacedRam) : Mapping Ram :=
  placed.offer.mapping

structure Fits (placed : PlacedRam) : Prop where
  nonempty : placed.base.toNat < placed.limit
  limit : placed.limit ≤ 0x10000

theorem Fits.placeable {placed : PlacedRam} (fits : placed.Fits) : placed.offer.Placeable where
  nonempty := Nat.pos_of_lt_add_right fits.nonempty
  within := fits.limit

theorem Fits.toNat_limit {placed : PlacedRam} (fits : placed.Fits) :
    placed.mapping.limit.toNat = placed.limit :=
  fits.placeable.countable.toNat_limit

theorem Fits.contains_iff {placed : PlacedRam} (fits : placed.Fits) (address : UInt16) :
    placed.mapping.contains address = true ↔ placed.Contains address := by
  rw [Mapping.contains_iff, fits.toNat_limit]
  rfl

theorem span_apart {first second : PlacedRam} (firstFits : first.Fits) (secondFits : second.Fits)
    (apart : ∀ address, first.Contains address → ¬second.Contains address) :
    first.mapping.span.Apart second.offer.span := by
  rintro ⟨below, above⟩
  rw [UInt32.lt_iff_toNat_lt, UInt16.toNat_toUInt32] at below above
  have firstLimit : first.mapping.span.limit.toNat = first.limit := firstFits.toNat_limit
  have secondLimit : second.offer.span.limit.toNat = second.limit := secondFits.toNat_limit
  rw [firstLimit] at below
  rw [secondLimit] at above
  -- Of two ranges that overlap one has its base in the other.
  rcases Nat.le_total first.base.toNat second.base.toNat with firstBefore | secondBefore
  · exact apart second.base ⟨firstBefore, below⟩ ⟨Nat.le_refl _, secondFits.nonempty⟩
  · exact apart first.base ⟨Nat.le_refl _, firstFits.nonempty⟩ ⟨secondBefore, above⟩

end PlacedRam

/-- RAM devices that share the address space out among themselves. -/
structure RamTiling (devices : List PlacedRam) : Prop where
  fits : ∀ placed ∈ devices, placed.Fits
  covers : ∀ address, ∃ placed ∈ devices, placed.Contains address
  apart : devices.Pairwise fun first second =>
    ∀ address, first.Contains address → ¬second.Contains address

namespace MappedMemory

def addAll (memory : MappedMemory Ram) (devices : List PlacedRam) :
    Except AdmissionFailure (MappedMemory Ram) :=
  devices.foldlM (fun memory placed => memory.addDevice placed.base placed.ram) memory

theorem addDevice_apart {memory : MappedMemory Ram} {earlier : List PlacedRam}
    (mapped : memory.mappings = earlier.map PlacedRam.mapping)
    (earlierFit : ∀ first ∈ earlier, first.Fits) {placed : PlacedRam} (fits : placed.Fits)
    (apart : ∀ first ∈ earlier, ∀ address, first.Contains address → ¬placed.Contains address) :
    memory.addDevice placed.base placed.ram =
      .ok { memory with mappings := memory.mappings ++ [placed.mapping] } := by
  refine addDevice_of_admits ⟨fits.placeable, fun span member => ?_⟩
  rw [spans, mapped, List.map_map] at member
  obtain ⟨first, among, rfl⟩ := List.mem_map.mp member
  exact PlacedRam.span_apart (earlierFit first among) fits (apart first among)

theorem addAll_apart {memory : MappedMemory Ram} {earlier devices : List PlacedRam}
    (mapped : memory.mappings = earlier.map PlacedRam.mapping)
    (fits : ∀ placed ∈ earlier ++ devices, placed.Fits)
    (apart : (earlier ++ devices).Pairwise fun first second =>
      ∀ address, first.Contains address → ¬second.Contains address) :
    memory.addAll devices =
      .ok { memory with mappings := (earlier ++ devices).map PlacedRam.mapping } := by
  induction devices generalizing memory earlier with
  | nil =>
      rw [List.append_nil, ← mapped]
      rfl
  | cons placed rest ih =>
      have added := addDevice_apart mapped
        (fun first among => fits first (List.mem_append_left _ among))
        (fits placed (by simp))
        (fun first among => (List.pairwise_append.mp apart).2.2 first among placed (by simp))
      have extended : memory.mappings ++ [placed.mapping] =
          (earlier ++ [placed]).map PlacedRam.mapping := by
        rw [mapped, List.map_append, List.map_singleton]
      have regrouped : earlier ++ placed :: rest = (earlier ++ [placed]) ++ rest :=
        List.append_cons earlier placed rest
      rw [regrouped] at fits apart ⊢
      rw [addAll, List.foldlM_cons, added]
      exact @ih { memory with mappings := memory.mappings ++ [placed.mapping] } _ extended fits apart

end MappedMemory

/-! Reads and writes of RAM. -/

namespace Ram

theorem read_write (ram : Ram) {offset : UInt16} (inside : offset.toNat < (Device.size ram).toNat)
    (query : UInt16) (value : UInt8) :
    Device.read (Device.write ram offset value) query =
      if offset = query then value else Device.read ram query := by
  have reached : offset.toNat < ram.bank.reach := by
    have bound := offset.toNat_lt
    exact Nat.lt_min.mpr ⟨inside, bound⟩
  simp only [Device.read, Device.write, Bank.get?_set, UInt16.toNat_inj]
  by_cases same : offset = query
  · subst same
    simp [reached]
  · simp [same]

theorem size_write (ram : Ram) (offset : UInt16) (value : UInt8) :
    Device.size (Device.write ram offset value) = Device.size ram :=
  Bank.size_set ram.bank offset.toNat value

theorem read_reset (ram : Ram) (offset : UInt16) : Device.read (Device.reset ram) offset = 0 := by
  simp only [Device.read, Device.reset, zeroed, Bank.filled, Bank.get?, Cells.get_replicate]
  split <;> rfl

end Ram

namespace Mapping

/-- The device has a byte for every address that the mapping answers for. -/
def Roomy (mapping : Mapping Ram) : Prop :=
  mapping.limit.toNat ≤ mapping.base.toNat + (Device.size mapping.device).toNat

theorem Roomy.offset_lt {mapping : Mapping Ram} (roomy : mapping.Roomy) {address : UInt16}
    (answers : mapping.contains address = true) :
    (mapping.offset address).toNat < (Device.size mapping.device).toNat := by
  have distance := toNat_offset answers
  rw [contains_iff] at answers
  simp only [Roomy] at roomy
  omega

theorem offset_eq_iff (mapping : Mapping Ram) (first second : UInt16) :
    mapping.offset first = mapping.offset second ↔ first = second :=
  UInt16.sub_left_inj mapping.base

end Mapping

namespace MappedMemory

def held (mappings : List (Mapping Ram)) (address : UInt16) : Option UInt8 :=
  (mappings.find? (·.contains address)).map fun mapping =>
    Device.read mapping.device (mapping.offset address)

theorem held_cons (mapping : Mapping Ram) (rest : List (Mapping Ram)) (address : UInt16) :
    held (mapping :: rest) address =
      if mapping.contains address = true then
        some (Device.read mapping.device (mapping.offset address))
      else held rest address := by
  simp only [held, List.find?_cons]
  split <;> simp_all

theorem held_writeDevice {mappings : List (Mapping Ram)}
    (roomy : ∀ mapping ∈ mappings, mapping.Roomy) (target : UInt16) (value : UInt8)
    (address : UInt16) :
    held (writeDevice target value mappings) address =
      if target = address then (held mappings address).map fun _ => value
      else held mappings address := by
  induction mappings with
  | nil => simp [held, writeDevice]
  | cons mapping rest ih =>
      rw [List.forall_mem_cons] at roomy
      -- Only the first device that answers is written, and a read asks the same one.
      by_cases takes : mapping.contains target = true
      · have moved : Mapping.contains { mapping with
            device := Device.write mapping.device (mapping.offset target) value } address =
            mapping.contains address := rfl
        rw [writeDevice, if_pos takes, held_cons, held_cons, moved]
        by_cases answers : mapping.contains address = true
        · have written := mapping.device.read_write (roomy.1.offset_lt takes)
            (mapping.offset address) value
          simp only [mapping.offset_eq_iff] at written
          simp only [if_pos answers, Option.map_some]
          split
          · rename_i same
            rw [if_pos same] at written
            exact congrArg some written
          · rename_i different
            rw [if_neg different] at written
            exact congrArg some written
        · have different : target ≠ address := by
            rintro rfl
            exact answers takes
          simp only [if_neg answers, if_neg different]
      · rw [writeDevice, if_neg takes, held_cons, held_cons, ih roomy.2]
        by_cases answers : mapping.contains address = true
        · have different : target ≠ address := by
            rintro rfl
            exact takes answers
          simp only [if_pos answers, if_neg different]
        · simp only [if_neg answers]

theorem roomy_writeDevice {mappings : List (Mapping Ram)}
    (roomy : ∀ mapping ∈ mappings, mapping.Roomy) (target : UInt16) (value : UInt8) :
    ∀ mapping ∈ writeDevice target value mappings, mapping.Roomy := by
  induction mappings with
  | nil => exact roomy
  | cons mapping rest ih =>
      rw [List.forall_mem_cons] at roomy
      simp only [writeDevice]
      split
      · refine List.forall_mem_cons.mpr ⟨?_, roomy.2⟩
        simp only [Mapping.Roomy, Ram.size_write]
        exact roomy.1
      · exact List.forall_mem_cons.mpr ⟨roomy.1, ih roomy.2⟩

theorem held_reset (mappings : List (Mapping Ram)) (address : UInt16) :
    held (mappings.map fun mapping => { mapping with device := Device.reset mapping.device })
        address =
      (held mappings address).map fun _ => 0 := by
  induction mappings with
  | nil => rfl
  | cons mapping rest ih =>
      have moved : Mapping.contains { mapping with device := Device.reset mapping.device } address =
          mapping.contains address := rfl
      rw [List.map_cons, held_cons, held_cons, ih, moved]
      split
      · exact congrArg some (mapping.device.read_reset _)
      · rfl

end MappedMemory

/-- Memory of RAM devices that holds what plain memory holds, without a gap or a fault. -/
structure SameBytes (flat : FlatMemory) (mapped : MappedMemory Ram) : Prop where
  held : ∀ address, MappedMemory.held mapped.mappings address = some (flat.read address)
  roomy : ∀ mapping ∈ mapped.mappings, mapping.Roomy
  clear : mapped.fault = none

namespace SameBytes

variable {flat : FlatMemory} {mapped : MappedMemory Ram}

theorem peek (same : SameBytes flat mapped) (address : UInt16) :
    Bus.peek mapped address = some (flat.read address) :=
  same.held address

theorem read (same : SameBytes flat mapped) (address : UInt16) :
    Bus.read mapped address = flat.read address := by
  have peeked : mapped.peek address = some (flat.read address) := same.held address
  simp only [Bus.read, MappedMemory.read, peeked, Option.getD_some]

theorem write (same : SameBytes flat mapped) (address : UInt16) (value : UInt8) :
    SameBytes (Bus.write flat address value) (Bus.write mapped address value) := by
  have written : Bus.write mapped address value =
      { mapped with
        mappings := MappedMemory.writeDevice address value mapped.mappings } := by
    have held := same.held address
    rcases found : mapped.find? address with _ | mapping
    · simp only [MappedMemory.find?] at found
      simp [MappedMemory.held, found] at held
    · have writable : Device.isWritable mapping.device = true := rfl
      simp only [Bus.write, MappedMemory.write, found, writable, if_true]
  rw [written]
  constructor
  · intro query
    rw [MappedMemory.held_writeDevice same.roomy, same.held]
    have kept := FlatMemory.read_write flat address query value
    simp only [Bus.write, kept]
    split <;> rfl
  · exact MappedMemory.roomy_writeDevice same.roomy address value
  · exact same.clear

theorem reset (same : SameBytes flat mapped) :
    SameBytes (Bus.reset flat) (Bus.reset mapped) := by
  constructor
  · intro address
    have zero : (Bus.reset flat).read address = 0 := FlatMemory.read_zeroed address
    rw [zero]
    exact (MappedMemory.held_reset mapped.mappings address).trans (by rw [same.held]; rfl)
  · intro mapping member
    obtain ⟨before, among, rfl⟩ := List.mem_map.mp member
    exact same.roomy before among
  · rfl

theorem interruptLine (mapped : MappedMemory Ram) : Bus.interruptLine mapped = false := by
  simp [Bus.interruptLine, MappedMemory.interruptLine, Device.interruptLine]

end SameBytes

theorem sameBytes_matches : Bus.Matches SameBytes where
  read same address := (same.read address).symm
  write same address value := same.write address value
  interruptLine _ := (SameBytes.interruptLine _).symm
  peek same address := (same.peek address).symm
  fault same := same.clear.symm
  clearFault same := ⟨same.held, same.roomy, rfl⟩
  reset same := same.reset

theorem flat_quiet : Bus.Quiet FlatMemory :=
  ⟨fun _ => rfl, fun _ => rfl⟩

theorem RamTiling.sameBytes {devices : List PlacedRam} (tiling : RamTiling devices)
    {flat : FlatMemory}
    (holds : ∀ placed ∈ devices, ∀ address, placed.Contains address →
      placed.read address = flat.read address) (unmappedValue : UInt8) (strictWrites : Bool) :
    SameBytes flat
      { mappings := devices.map PlacedRam.mapping, unmappedValue, strictWrites } := by
  constructor
  · intro address
    rcases found : (devices.map PlacedRam.mapping).find? (·.contains address) with _ | mapping
    · obtain ⟨placed, among, contains⟩ := tiling.covers address
      have unanswered := List.find?_eq_none.mp found placed.mapping (List.mem_map_of_mem among)
      exact absurd (((tiling.fits placed among).contains_iff address).mpr contains) unanswered
    · obtain ⟨placed, among, rfl⟩ := List.mem_map.mp (List.mem_of_find?_eq_some found)
      have answers : placed.mapping.contains address = true :=
        List.find?_some (p := fun mapping : Mapping Ram => mapping.contains address) found
      have contains := ((tiling.fits placed among).contains_iff address).mp answers
      simp only [MappedMemory.held, found, Option.map_some]
      exact congrArg some (holds placed among address contains)
  · intro mapping member
    obtain ⟨placed, among, rfl⟩ := List.mem_map.mp member
    exact Nat.le_of_eq (tiling.fits placed among).toNat_limit
  · rfl

namespace Session

/-- A dialogue on RAM devices against the same one on plain memory. -/
structure Refines (mapped : List Answer × Session (MappedMemory Ram))
    (flat : List Answer × Session FlatMemory) : Prop where
  answers : mapped.1 = flat.1
  session : mapped.2 = flat.2.onto mapped.2.cpu.memory
  bytes : ∀ address,
    Bus.read mapped.2.cpu.memory address = Bus.read flat.2.cpu.memory address ∧
      Bus.peek mapped.2.cpu.memory address = some (Bus.read flat.2.cpu.memory address)
  faultless : Bus.fault mapped.2.cpu.memory = none
  released : Bus.interruptLine mapped.2.cpu.memory = false
  quiet : ∀ answer ∈ mapped.1, answer.Quiet

theorem Alike.refines {flat : Session FlatMemory} {mapped : Session (MappedMemory Ram)}
    (alike : Alike SameBytes flat mapped) (operations : List Operation) :
    Refines (mapped.carryOutAll operations) (flat.carryOutAll operations) := by
  obtain ⟨answers, after⟩ := alike.carryOutAll sameBytes_matches operations
  refine ⟨answers.symm, ?_, fun address => ⟨?_, ?_⟩, after.cpu.memory.clear,
    SameBytes.interruptLine _, ?_⟩
  · have cpu := after.cpu.onto_eq
    have debugger := after.debugger
    rw [onto, cpu, debugger]
  · exact after.cpu.memory.read address
  · exact after.cpu.memory.peek address
  · rw [← answers]
    exact Dialogue.run_answers (fun session => session.carryOut_quiet flat_quiet) flat operations

/-- RAM devices that share out the whole address space can be added in whatever order they
come, and then no host can tell the machine from one with plain memory. -/
theorem tiled_ram_refines_flat {devices : List PlacedRam} (tiling : RamTiling devices)
    (unmappedValue : UInt8) (strictWrites : Bool) (session : Session FlatMemory)
    (holds : ∀ placed ∈ devices, ∀ address, placed.Contains address →
      placed.read address = Bus.read session.cpu.memory address) :
    ∃ memory, ({ unmappedValue, strictWrites } : MappedMemory Ram).addAll devices = .ok memory ∧
      ∀ operations, Refines ((session.onto memory).carryOutAll operations)
        (session.carryOutAll operations) := by
  refine ⟨_, @MappedMemory.addAll_apart _ [] devices rfl tiling.fits tiling.apart, ?_⟩
  intro operations
  have same := tiling.sameBytes holds unmappedValue strictWrites
  have alike : Alike SameBytes session
      (session.onto
        { mappings := devices.map PlacedRam.mapping, unmappedValue, strictWrites }) :=
    ⟨Cpu.Alike.of_onto same, rfl⟩
  exact alike.refines operations

def splitRam : List PlacedRam :=
  [⟨0x0180, Ram.zeroed 0xFE80⟩, ⟨0x0000, Ram.zeroed 0x0180⟩]

theorem splitRam_tiling : RamTiling splitRam where
  fits := by
    intro placed member
    simp only [splitRam, List.mem_cons, List.not_mem_nil, or_false] at member
    rcases member with rfl | rfl
    · exact ⟨by decide, by decide⟩
    · exact ⟨by decide, by decide⟩
  covers address := by
    have bound := address.toNat_lt
    by_cases low : address.toNat < 0x0180
    · exact ⟨⟨0x0000, Ram.zeroed 0x0180⟩, by simp [splitRam], Nat.zero_le _, low⟩
    · exact ⟨⟨0x0180, Ram.zeroed 0xFE80⟩, by simp [splitRam], Nat.le_of_not_lt low, bound⟩
  apart := by
    simp only [splitRam, List.pairwise_cons, List.mem_singleton, forall_eq]
    refine ⟨?_, by simp⟩
    rintro address ⟨above, _⟩ ⟨_, below⟩
    exact absurd below (Nat.not_lt.mpr above)

def blank : Session FlatMemory :=
  { cpu := Cpu.create FlatMemory.zeroed {}, debugger := ({} : Debugger).start }

theorem splitRam_refines :
    RamTiling splitRam ∧
      ∃ memory, ({ strictWrites := true } : MappedMemory Ram).addAll splitRam = .ok memory ∧
        Refines
          ((blank.onto memory).carryOutAll
            [.watch 0x0180 .both none none, .run 300, .dump 0x0170 32, .takeEvents])
          (blank.carryOutAll
            [.watch 0x0180 .both none none, .run 300, .dump 0x0170 32, .takeEvents]) := by
  refine ⟨splitRam_tiling, ?_⟩
  have refines := tiled_ram_refines_flat splitRam_tiling 0xFF true blank (by
    intro placed member address _
    have zero : Bus.read blank.cpu.memory address = 0 := FlatMemory.read_zeroed address
    rw [zero]
    simp only [splitRam, List.mem_cons, List.not_mem_nil, or_false] at member
    rcases member with rfl | rfl
    · exact Ram.read_reset (Ram.zeroed 0xFE80) _
    · exact Ram.read_reset (Ram.zeroed 0x0180) _)
  obtain ⟨memory, added, alike⟩ := refines
  exact ⟨memory, added, alike _⟩

end Session

end Nmos6502
