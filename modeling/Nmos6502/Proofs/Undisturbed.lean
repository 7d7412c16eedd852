import Nmos6502.Proofs.Steps

/-!
What instructions and interrupt entries leave alone. They work on memory and registers, and
the accesses and stack wraps that this takes are noted; the counters, the halt and the records
of the last step change only where a step begins and ends.
-/

namespace Nmos6502.Cpu

section

variable {β : Type}

/-- Nothing but memory, registers, and the notes of accesses and stack wraps has changed. -/
structure Undisturbed (before after : Cpu β) : Prop where
  config : after.config = before.config
  counters : after.counters = before.counters
  halted : after.halted = before.halted
  nmiRequested : after.nmiRequested = before.nmiRequested
  irqRequested : after.irqRequested = before.irqRequested
  origin : after.origin = before.origin
  lastStep : after.lastStep = before.lastStep
  lastInstruction : after.lastInstruction = before.lastInstruction

theorem Undisturbed.refl (cpu : Cpu β) : Undisturbed cpu cpu :=
  ⟨rfl, rfl, rfl, rfl, rfl, rfl, rfl, rfl⟩

theorem Undisturbed.trans {before middle after : Cpu β} (start : Undisturbed before middle)
    (finish : Undisturbed middle after) : Undisturbed before after where
  config := finish.config.trans start.config
  counters := finish.counters.trans start.counters
  halted := finish.halted.trans start.halted
  nmiRequested := finish.nmiRequested.trans start.nmiRequested
  irqRequested := finish.irqRequested.trans start.irqRequested
  origin := finish.origin.trans start.origin
  lastStep := finish.lastStep.trans start.lastStep
  lastInstruction := finish.lastInstruction.trans start.lastInstruction

theorem mapRegisters_undisturbed (cpu : Cpu β) (update : Registers → Registers) :
    Undisturbed cpu (cpu.mapRegisters update) :=
  ⟨rfl, rfl, rfl, rfl, rfl, rfl, rfl, rfl⟩

theorem Undisturbed.thenRegisters {before after : Cpu β} (start : Undisturbed before after)
    (update : Registers → Registers) : Undisturbed before (after.mapRegisters update) :=
  start.trans (after.mapRegisters_undisturbed update)

theorem jumpTo_undisturbed (cpu : Cpu β) (address : UInt16) :
    Undisturbed cpu (cpu.jumpTo address) :=
  cpu.mapRegisters_undisturbed _

theorem noteStackWrap_undisturbed (cpu : Cpu β) (kind : WrapKind) :
    Undisturbed cpu (cpu.noteStackWrap kind) :=
  ⟨rfl, rfl, rfl, rfl, rfl, rfl, rfl, rfl⟩

theorem record_undisturbed (cpu : Cpu β) (access : Access) :
    Undisturbed cpu (cpu.record access) := by
  simp only [record]
  split
  · exact ⟨rfl, rfl, rfl, rfl, rfl, rfl, rfl, rfl⟩
  · exact .refl cpu

theorem follow_undisturbed (place : Place) (cpu : Cpu β) :
    Undisturbed cpu (Action.follow place cpu) := by
  cases place with
  | cell target => exact cpu.jumpTo_undisturbed target
  | nowhere | accumulator | constant _ => exact .refl cpu

end

variable {β : Type} [Bus β]

theorem read_undisturbed (cpu : Cpu β) (address : UInt16) :
    Undisturbed cpu (cpu.read address).2 :=
  cpu.record_undisturbed _

theorem write_undisturbed (cpu : Cpu β) (address : UInt16) (value : UInt8) :
    Undisturbed cpu (cpu.write address value) := by
  have written : Undisturbed cpu { cpu with memory := Bus.write cpu.memory address value } :=
    ⟨rfl, rfl, rfl, rfl, rfl, rfl, rfl, rfl⟩
  exact written.trans (record_undisturbed _ _)

theorem load_undisturbed (cpu : Cpu β) (place : Place) : Undisturbed cpu (cpu.load place).2 := by
  cases place with
  | cell address => exact cpu.read_undisturbed address
  | nowhere | accumulator | constant _ => exact .refl cpu

theorem store_undisturbed (cpu : Cpu β) (place : Place) (value : UInt8) :
    Undisturbed cpu (cpu.store place value) := by
  cases place with
  | cell address => exact cpu.write_undisturbed address value
  | accumulator => exact cpu.mapRegisters_undisturbed fun registers => { registers with a := value }
  | nowhere | constant _ => exact .refl cpu

theorem pushByte_undisturbed (cpu : Cpu β) (value : UInt8) :
    Undisturbed cpu (cpu.pushByte value) := by
  have written := cpu.write_undisturbed (stackAddress cpu.registers.stackPointer) value
  simp only [pushByte]
  split
  · exact (written.trans (noteStackWrap_undisturbed _ _)).thenRegisters _
  · exact written.thenRegisters _

theorem pullByte_undisturbed (cpu : Cpu β) : Undisturbed cpu cpu.pullByte.2 := by
  simp only [pullByte]
  split
  · exact ((cpu.noteStackWrap_undisturbed _).thenRegisters _).trans (read_undisturbed _ _)
  · exact (cpu.mapRegisters_undisturbed _).trans (read_undisturbed _ _)

theorem pushWord_undisturbed (cpu : Cpu β) (value : UInt16) :
    Undisturbed cpu (cpu.pushWord value) :=
  (cpu.pushByte_undisturbed _).trans (pushByte_undisturbed _ _)

theorem pullWord_undisturbed (cpu : Cpu β) : Undisturbed cpu cpu.pullWord.2 :=
  cpu.pullByte_undisturbed.trans (pullByte_undisturbed _)

/-- An interrupt entry acknowledges its request, and that is all it does to the requests. -/
theorem enterInterrupt_undisturbed (cpu : Cpu β) (source : Interrupt) :
    Undisturbed (cpu.acknowledge source) (cpu.enterInterrupt source) := by
  have pushed := (cpu.pushWord_undisturbed cpu.registers.programCounter).trans
    (pushByte_undisturbed _ (interruptStatus cpu.registers.status source))
  simp only [enterInterrupt]
  generalize (cpu.pushWord cpu.registers.programCounter).pushByte
    (interruptStatus cpu.registers.status source) = saved at pushed ⊢
  cases source with
  | nmi => exact { pushed with nmiRequested := rfl }
  | irq => exact { pushed with irqRequested := rfl }
  | brk => exact { pushed with }

theorem perform_undisturbed (action : Action) (place : Place) (cpu : Cpu β) :
    Undisturbed cpu (action.perform place cpu) := by
  cases action with
  | read use =>
      exact (cpu.load_undisturbed place).thenRegisters fun registers =>
        use registers (cpu.load place).1
  | write source => exact cpu.store_undisturbed place (source cpu.registers)
  | modify transform =>
      simp only [Action.perform]
      exact ((cpu.load_undisturbed place).trans (store_undisturbed _ place _)).thenRegisters _
  | internal update => exact cpu.mapRegisters_undisturbed update
  | branch condition =>
      simp only [Action.perform]
      split
      · exact follow_undisturbed place cpu
      · exact .refl cpu
  | push source => exact cpu.pushByte_undisturbed (source cpu.registers)
  | pull use =>
      exact cpu.pullByte_undisturbed.thenRegisters fun registers =>
        use registers cpu.pullByte.1
  | jump => exact follow_undisturbed place cpu
  | call => exact (cpu.pushWord_undisturbed _).trans (follow_undisturbed place _)
  | subroutineReturn => exact cpu.pullWord_undisturbed.trans (jumpTo_undisturbed _ _)
  | interruptReturn =>
      have restored := cpu.pullByte_undisturbed.thenRegisters fun registers =>
        registers.restoreStatus cpu.pullByte.1
      exact (restored.trans (pullWord_undisturbed _)).trans (jumpTo_undisturbed _ _)
  | softwareInterrupt =>
      exact (cpu.jumpTo_undisturbed _).trans (enterInterrupt_undisturbed _ .brk)

end Nmos6502.Cpu
