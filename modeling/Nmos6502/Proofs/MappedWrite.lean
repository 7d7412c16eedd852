import Nmos6502.Memory.Mapped
import Nmos6502.Proofs.StepLog

/-!
Writes to memory made of devices. A write never moves a device, and an address at which
writes are dropped has the same device, if any, in the same state for good.
-/

namespace Nmos6502

namespace Mapping

variable {δ : Type}

theorem contains_iff (mapping : Mapping δ) (address : UInt16) :
    mapping.contains address = true ↔
      mapping.base.toNat ≤ address.toNat ∧ address.toNat < mapping.limit.toNat := by
  simp only [contains, Bool.and_eq_true, decide_eq_true_eq, UInt16.le_iff_toNat_le,
    UInt32.lt_iff_toNat_lt, UInt16.toNat_toUInt32]

theorem toNat_offset {mapping : Mapping δ} {address : UInt16}
    (answers : mapping.contains address = true) :
    (mapping.offset address).toNat = address.toNat - mapping.base.toNat := by
  rw [contains_iff] at answers
  exact UInt16.toNat_sub_of_le _ _ (UInt16.le_iff_toNat_le.mpr answers.1)

end Mapping

namespace MappedMemory

variable {δ : Type}

theorem raise_mappings (memory : MappedMemory δ) (fault : BusFault) :
    (memory.raise fault).mappings = memory.mappings := by
  simp only [raise]
  split <;> rfl

variable [Device δ]

def drops (memory : MappedMemory δ) (address : UInt16) : Bool :=
  (memory.find? address).all fun mapping => !Device.isWritable mapping.device

/-- The write that one device takes is not seen at an address of another. -/
theorem find?_writeDevice {address target : UInt16} {value : UInt8} {mappings : List (Mapping δ)}
    {taker : Mapping δ} (taken : mappings.find? (·.contains target) = some taker)
    (writable : Device.isWritable taker.device = true)
    (dropped : (mappings.find? (·.contains address)).all
      (fun mapping => !Device.isWritable mapping.device) = true) :
    (writeDevice target value mappings).find? (·.contains address) =
      mappings.find? (·.contains address) := by
  induction mappings with
  | nil => rfl
  | cons mapping rest ih =>
      rw [List.find?_cons] at taken dropped
      by_cases answers : mapping.contains address = true
      · simp only [answers, Option.all_some, Bool.not_eq_true'] at dropped
        by_cases takes : mapping.contains target = true
        · -- One device would both take the write and drop it.
          simp only [takes, Option.some.injEq] at taken
          rw [taken, writable] at dropped
          contradiction
        · rw [writeDevice, if_neg takes, List.find?_cons, List.find?_cons, answers]
      · simp only [Bool.not_eq_true] at answers
        simp only [answers] at dropped
        by_cases takes : mapping.contains target = true
        · -- A write does not move a device.
          have moved : Mapping.contains { mapping with
              device := Device.write mapping.device (mapping.offset target) value } address =
              false := answers
          rw [writeDevice, if_pos takes, List.find?_cons, List.find?_cons, moved, answers]
        · simp only [takes] at taken
          rw [writeDevice, if_neg takes, List.find?_cons, List.find?_cons, answers]
          exact ih taken dropped

theorem find?_write {memory : MappedMemory δ} {address : UInt16}
    (dropped : memory.drops address = true) (target : UInt16) (value : UInt8) :
    (memory.write target value).find? address = memory.find? address := by
  simp only [write]
  split
  · rename_i taker taken
    split
    · rename_i writable
      exact find?_writeDevice taken writable dropped
    · simp only [find?, raise_mappings]
  · simp only [find?, raise_mappings]

theorem drops_eq_of_find? {before after : MappedMemory δ} {address : UInt16}
    (same : after.find? address = before.find? address) :
    after.drops address = before.drops address := by
  rw [drops, drops, same]

theorem peek_eq_of_find? {before after : MappedMemory δ} {address : UInt16}
    (same : after.find? address = before.find? address) :
    after.peek address = before.peek address := by
  rw [peek, peek, same]

theorem find?_replay {memory : MappedMemory δ} {address : UInt16}
    (dropped : memory.drops address = true) (log : List Access) :
    (Access.replay memory log).find? address = memory.find? address := by
  induction log generalizing memory with
  | nil => rfl
  | cons access rest ih =>
      have same : (Access.apply memory access).find? address = memory.find? address := by
        simp only [Access.apply]
        split
        · rfl
        · exact find?_write dropped access.address access.value
      exact (ih ((drops_eq_of_find? same).trans dropped)).trans same

theorem read_dropped {memory : MappedMemory δ} {log : List Access} {access : Access}
    (dropped : memory.drops access.address = true) (truthful : Access.Truthful memory log)
    (member : access ∈ log) (read : access.kind = .read) {byte : UInt8}
    (held : memory.peek access.address = some byte) : access.value = byte := by
  obtain ⟨earlier, later, split⟩ := List.append_of_mem member
  have same := peek_eq_of_find? (find?_replay dropped earlier)
  rw [truthful.read_value split read]
  simp [Bus.read, MappedMemory.read, same, held]

theorem find?_step {cpu : Cpu (MappedMemory δ)} {address : UInt16}
    (dropped : cpu.memory.drops address = true) :
    cpu.step.2.memory.find? address = cpu.memory.find? address := by
  have replayed := find?_replay dropped cpu.stepAccesses
  rcases cpu.step_memory with memory | memory
  · rw [memory, replayed]
  · rw [memory, Cpu.settledMemory]
    split <;> exact replayed

end MappedMemory

end Nmos6502
