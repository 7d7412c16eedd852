import Nmos6502.Memory.Flat
import Nmos6502.Proofs.StepLog

/-!
The log of a step on plain memory. It accounts for every byte that a step changes, and each
byte of memory depends on no more of the log than the accesses to its own address.
-/

namespace Nmos6502

namespace Access

theorem read_apply (memory : FlatMemory) (access : Access) (address : UInt16) :
    (apply memory access).read address =
      if access.kind = .write ∧ access.address = address then access.value
      else memory.read address := by
  rcases access with ⟨_ | _, target, value⟩
  · simp [apply]
  · simp only [apply, true_and]
    exact FlatMemory.read_write memory target address value

theorem read_replay_untouched (memory : FlatMemory) (log : List Access) (address : UInt16)
    (untouched : ∀ access ∈ log, access.kind = .write → access.address ≠ address) :
    (replay memory log).read address = memory.read address := by
  induction log generalizing memory with
  | nil => rfl
  | cons access rest ih =>
      rw [List.forall_mem_cons] at untouched
      have here := read_apply memory access address
      rw [if_neg fun ⟨write, same⟩ => untouched.1 write same] at here
      exact (ih (apply memory access) untouched.2).trans here

theorem read_replay_first_write (memory : FlatMemory) (target : UInt16) (value : UInt8)
    {rest : List Access}
    (distinct : (((⟨.write, target, value⟩ :: rest).filter isWrite).map address).Nodup) :
    (replay memory (⟨.write, target, value⟩ :: rest)).read target = value := by
  have untouched : ∀ access ∈ rest, access.kind = .write → access.address ≠ target := by
    intro access member write same
    refine (List.nodup_cons.mp distinct).1 (List.mem_map.mpr ⟨access, ?_, same⟩)
    simp [member, write, isWrite]
  have here := read_apply memory ⟨.write, target, value⟩ target
  rw [if_pos ⟨rfl, rfl⟩] at here
  exact (read_replay_untouched _ rest target untouched).trans here

theorem read_replay_pushes_elsewhere (memory : FlatMemory) (stackPointer : UInt8)
    (bytes : List UInt8) (address : UInt16)
    (elsewhere : ∀ offset < bytes.length,
      address ≠ stackAddress (stackPointer - UInt8.ofNat offset)) :
    (replay memory (pushes stackPointer bytes)).read address = memory.read address := by
  refine read_replay_untouched memory _ address fun access member _ same => ?_
  obtain ⟨_, offset, below, pushed⟩ := mem_pushes member
  exact elsewhere offset below (same.symm.trans pushed)

theorem read_replay_pushes_outside (memory : FlatMemory) (stackPointer : UInt8)
    (bytes : List UInt8) {address : UInt16} (outside : address < 0x0100 ∨ 0x01FF < address) :
    (replay memory (pushes stackPointer bytes)).read address = memory.read address :=
  read_replay_pushes_elsewhere memory stackPointer bytes address fun _ _ =>
    ne_stackAddress outside _

theorem read_replay_pushes (memory : FlatMemory) (stackPointer : UInt8) (bytes : List UInt8)
    (room : bytes.length ≤ 256) (offset : Nat) (below : offset < bytes.length) :
    (replay memory (pushes stackPointer bytes)).read
      (stackAddress (stackPointer - UInt8.ofNat offset)) = bytes[offset] := by
  induction bytes generalizing memory stackPointer offset with
  | nil => simp at below
  | cons byte rest ih =>
      rw [List.length_cons] at room below
      let pushed := memory.write (stackAddress stackPointer) byte
      cases offset with
      | zero =>
          -- Within a page the later pushes do not come around to the first one.
          have others := read_replay_pushes_elsewhere pushed (stackPointer - 1) rest
            (stackAddress stackPointer) fun offset less same => by
              have equal := congrArg UInt8.toNat (stackAddress_injective same)
              have bound := stackPointer.toNat_lt
              simp only [UInt8.toNat_sub, UInt8.toNat_ofNat', UInt8.toNat_one] at equal
              omega
          rw [FlatMemory.read_write, if_pos rfl] at others
          rw [show stackPointer - UInt8.ofNat 0 = stackPointer by simp]
          exact others
      | succ offset =>
          rw [← sub_one_sub_ofNat]
          exact ih pushed (stackPointer - 1) (by omega) offset (by omega)

/-- A log tells exactly what happened between two states of memory. -/
structure Exact (before after : FlatMemory) (log : List Access) : Prop where
  replayed : after = replay before log
  unlogged : ∀ address, (∀ access ∈ log, access.kind = .write → access.address ≠ address) →
    after.read address = before.read address
  reads : ∀ earlier access later, log = earlier ++ access :: later → access.kind = .read →
    access.value = (replay before earlier).read access.address
  distinct : ((log.filter isWrite).map address).Nodup
  length : log.length ≤ 3

end Access

namespace Cpu

theorem settledMemory_flat (memory : FlatMemory) : settledMemory memory = memory := rfl

theorem flat_step_memory (cpu : Cpu FlatMemory) :
    cpu.step.2.memory = Access.replay cpu.memory cpu.stepAccesses := by
  rcases cpu.step_memory with memory | memory
  · exact memory
  · exact memory.trans (settledMemory_flat _)

/-- On plain memory the log of a step is exact, and all of it was made by that step. -/
theorem step_log_exact (cpu : Cpu FlatMemory) (recording : cpu.config.recordAccesses = true) :
    Access.Exact cpu.memory cpu.step.2.memory cpu.step.2.accesses ∧
      ∀ stale, ({ cpu with accesses := stale }).step = cpu.step := by
  refine ⟨?_, cpu.step_forgets⟩
  have brief := cpu.stepAccesses_brief
  rw [step_accesses_recording recording, flat_step_memory]
  constructor
  · rfl
  · exact Access.read_replay_untouched cpu.memory cpu.stepAccesses
  · intro earlier access later split read
    exact cpu.stepAccesses_truthful.read_value split read
  · exact brief.distinct
  · exact brief.length

def atWrappingBrk : Cpu FlatMemory :=
  { memory := FlatMemory.zeroed, registers := { stackPointer := 0x01 } }

theorem atWrappingBrk_log_exact :
    atWrappingBrk.step.2.accesses =
        [⟨.write, 0x0101, 0x00⟩, ⟨.write, 0x0100, 0x02⟩, ⟨.write, 0x01FF, 0x30⟩] ∧
      Access.Exact atWrappingBrk.memory atWrappingBrk.step.2.memory
        atWrappingBrk.step.2.accesses :=
  ⟨by decide +kernel, (step_log_exact atWrappingBrk rfl).1⟩

end Cpu

end Nmos6502
