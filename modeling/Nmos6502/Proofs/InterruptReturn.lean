import Nmos6502.Proofs.InstructionEffects
import Nmos6502.Proofs.InstructionFlow

/-!
An interrupt entry against the return from it. The entry leaves on the stack all that the return
takes to undo it, and so the return undoes it from whatever state in which this is still there.
-/

namespace Nmos6502

namespace Opcode

theorem size_of_brk (byte : UInt8) : (ofByte byte).mnemonic = .brk → (ofByte byte).size = 1 :=
  forall_ofByte (P := fun opcode => opcode.mnemonic = .brk → opcode.size = 1)
    (by decide +kernel) byte

end Opcode

namespace Cpu

section

variable {β : Type} [Bus β]

def AboutTo (cpu : Cpu β) (mnemonic : Mnemonic) : Prop :=
  cpu.halted = false ∧ cpu.dueInterrupt = none ∧
    (Opcode.ofByte cpu.opcodeByte).mnemonic = mnemonic

def Enters (cpu : Cpu β) : Interrupt → Prop
  | .brk => cpu.AboutTo .brk
  | source => cpu.halted = false ∧ cpu.dueInterrupt = some source

/-- Where a program goes on after an interrupt. BRK is followed by a byte that is passed over. -/
def returnAddress (cpu : Cpu β) : Interrupt → UInt16
  | .brk => cpu.registers.programCounter + 2
  | .nmi | .irq => cpu.registers.programCounter

def interruptedRegisters (cpu : Cpu β) (source : Interrupt) : Registers :=
  { cpu.registers with programCounter := cpu.returnAddress source }

def savedBytes (cpu : Cpu β) (source : Interrupt) : List UInt8 :=
  [highByte (cpu.returnAddress source), lowByte (cpu.returnAddress source),
    interruptStatus cpu.registers.status source]

variable {cpu : Cpu β}

theorem AboutTo.executes {mnemonic : Mnemonic} (aboutTo : cpu.AboutTo mnemonic)
    (documented : mnemonic ≠ .illegal) : cpu.Executes cpu.nextInstruction := by
  obtain ⟨running, free, rfl⟩ := aboutTo
  have legal : cpu.meetsIllegalOpcode = false := by
    simp [meetsIllegalOpcode, Opcode.isIllegal, documented]
  apply executes_of_lastStep
  rw [step, if_neg (by simp [running]), free]
  simp only [legal, Bool.false_eq_true, if_false]
  rw [settle_lastStep]
  rfl

theorem AboutTo.advancedRegisters_brk (aboutTo : cpu.AboutTo .brk) :
    { cpu.advancedRegisters with
      programCounter := cpu.advancedRegisters.programCounter + 1 } =
      cpu.interruptedRegisters .brk := by
  have size := Opcode.size_of_brk _ aboutTo.2.2
  simp only [advancedRegisters, size, interruptedRegisters, returnAddress, UInt16.add_assoc]
  rfl

theorem Enters.registers_eq {source : Interrupt} (enters : cpu.Enters source) :
    cpu.step.2.registers =
      enteredRegisters cpu.memory (cpu.interruptedRegisters source) source := by
  cases source with
  | nmi | irq =>
      have services := (cpu.services_iff _).mpr enters
      rw [services.step_eq, settle_registers]
      exact cpu.begin.enterInterrupt_registers _
  | brk =>
      have aboutTo : cpu.AboutTo .brk := enters
      have executes := aboutTo.executes (by decide)
      rw [executes.registers, aboutTo.2.2, ← aboutTo.advancedRegisters_brk]
      rfl

theorem Enters.stepAccesses_eq {source : Interrupt} (enters : cpu.Enters source) :
    cpu.stepAccesses = entryAccesses (cpu.interruptedRegisters source) source := by
  cases source with
  | nmi | irq =>
      obtain ⟨running, due⟩ := enters
      rw [stepAccesses, if_neg (by simp [running]), due]
      rfl
  | brk =>
      have aboutTo : cpu.AboutTo .brk := enters
      have executes := aboutTo.executes (by decide)
      rw [executes.stepAccesses_eq, executes.mnemonic_eq, aboutTo.2.2,
        ← aboutTo.advancedRegisters_brk]
      rfl

end

/-- What an interrupt entry does: three bytes go on the stack, and nothing else in memory changes;
the handler starts with I set. -/
structure Saves (before after : Cpu FlatMemory) (source : Interrupt) : Prop where
  high : after.memory.read (stackAddress before.registers.stackPointer) =
    highByte (before.returnAddress source)
  low : after.memory.read (stackAddress (before.registers.stackPointer - 1)) =
    lowByte (before.returnAddress source)
  status : ∀ flag : Flag,
    (after.memory.read (stackAddress (before.registers.stackPointer - 2)) &&& flag.mask != 0) =
      if flag = .breakCommand then source == .brk else before.registers.status.get flag
  elsewhere : ∀ address,
    (∀ offset < 3, address ≠ stackAddress (before.registers.stackPointer - UInt8.ofNat offset)) →
      after.memory.read address = before.memory.read address
  registers : after.registers =
    { before.registers with
      stackPointer := before.registers.stackPointer - 3
      status := { before.registers.status with interruptDisable := true }
      programCounter := Operand.readWord before.memory source.vector }

section

variable {cpu : Cpu FlatMemory} {source : Interrupt}

theorem Enters.memory_eq (enters : cpu.Enters source) :
    cpu.step.2.memory =
      Access.replay cpu.memory
        (Access.pushes cpu.registers.stackPointer (cpu.savedBytes source)) := by
  rw [flat_step_memory, enters.stepAccesses_eq]
  rfl

theorem Enters.read_saved (enters : cpu.Enters source) (offset : Nat) (below : offset < 3) :
    cpu.step.2.memory.read (stackAddress (cpu.registers.stackPointer - UInt8.ofNat offset)) =
      (cpu.savedBytes source)[offset] := by
  rw [enters.memory_eq]
  exact Access.read_replay_pushes cpu.memory cpu.registers.stackPointer (cpu.savedBytes source)
    (by simp [savedBytes]) offset below

theorem mask_interruptStatus (status : Status) (source : Interrupt) (flag : Flag) :
    (interruptStatus status source &&& flag.mask != 0) =
      if flag = .breakCommand then source == .brk else status.get flag := by
  rw [interruptStatus, Status.mask_pack]
  cases flag <;> rfl

theorem Enters.saves (enters : cpu.Enters source) : Saves cpu cpu.step.2 source := by
  constructor
  case high =>
    have top := enters.read_saved 0 (by decide)
    rw [show UInt8.ofNat 0 = 0 from rfl, UInt8.sub_zero] at top
    exact top
  case low => exact enters.read_saved 1 (by decide)
  case status =>
    intro flag
    have packed := enters.read_saved 2 (by decide)
    rw [← mask_interruptStatus]
    exact congrArg (fun byte => byte &&& flag.mask != 0) packed
  case elsewhere =>
    intro address elsewhere
    rw [enters.memory_eq]
    exact Access.read_replay_pushes_elsewhere cpu.memory _ _ address elsewhere
  case registers =>
    -- The vector is read after the pushes, which do not reach it.
    have vector := enteredRegisters_vector cpu.memory (cpu.interruptedRegisters source) source
    have moved : cpu.registers.stackPointer - 1 - 1 - 1 = cpu.registers.stackPointer - 3 := by
      grind
    rw [enters.registers_eq, ← vector, ← moved]
    rfl

theorem AboutTo.registers_rti (aboutTo : cpu.AboutTo .rti) :
    cpu.step.2.registers =
      { cpu.registers.restoreStatus
          (cpu.memory.read (stackAddress (cpu.registers.stackPointer + 1))) with
        stackPointer := cpu.registers.stackPointer + 3
        programCounter :=
          wordOf (cpu.memory.read (stackAddress (cpu.registers.stackPointer + 2)))
            (cpu.memory.read (stackAddress (cpu.registers.stackPointer + 3))) } := by
  have executes := aboutTo.executes (by decide)
  have two : cpu.registers.stackPointer + 1 + 1 = cpu.registers.stackPointer + 2 := by grind
  have three : cpu.registers.stackPointer + 2 + 1 = cpu.registers.stackPointer + 3 := by grind
  rw [executes.registers, aboutTo.2.2, ← three, ← two]
  rfl

/-- An interrupt entry saves the return address and the status, and RTI brings them back, wherever
on the stack page they lie and whatever has happened to the rest of the machine. B alone does not
come back: RTI leaves it as it finds it. -/
theorem return_inverts_entry {cpu : Cpu FlatMemory} {source : Interrupt}
    (enters : cpu.Enters source) :
    Saves cpu cpu.step.2 source ∧
    ∀ later : Cpu FlatMemory, later.AboutTo .rti →
      later.registers.stackPointer = cpu.step.2.registers.stackPointer →
      (∀ offset < 3,
        later.memory.read (stackAddress (cpu.registers.stackPointer - UInt8.ofNat offset)) =
          cpu.step.2.memory.read
            (stackAddress (cpu.registers.stackPointer - UInt8.ofNat offset))) →
      later.step.2.registers =
        { later.registers with
          stackPointer := cpu.registers.stackPointer
          status :=
            { cpu.registers.status with breakCommand := later.registers.status.breakCommand }
          programCounter := cpu.returnAddress source } := by
  have saves := enters.saves
  refine ⟨saves, fun later aboutTo atReturn intact => ?_⟩
  have atSaved : later.registers.stackPointer = cpu.registers.stackPointer - 3 := by
    rw [atReturn, saves.registers]
  have status := (intact 2 (by decide)).trans (enters.read_saved 2 (by decide))
  have low := (intact 1 (by decide)).trans (enters.read_saved 1 (by decide))
  have high := (intact 0 (by decide)).trans (enters.read_saved 0 (by decide))
  -- RTI pulls from where the entry pushed, in the opposite order.
  have first : later.registers.stackPointer + 1 =
      cpu.registers.stackPointer - UInt8.ofNat 2 := by grind
  have second : later.registers.stackPointer + 2 =
      cpu.registers.stackPointer - UInt8.ofNat 1 := by grind
  have third : later.registers.stackPointer + 3 =
      cpu.registers.stackPointer - UInt8.ofNat 0 := by grind
  have start : later.registers.stackPointer + 3 = cpu.registers.stackPointer := by grind
  rw [aboutTo.registers_rti, first, second, third, status, low, high, ← third, start]
  simp only [savedBytes, List.getElem_cons_zero, List.getElem_cons_succ, wordOf_bytes,
    Registers.restoreStatus, interruptStatus, Status.unpack_pack]

end

def atWrappingIrq : Cpu FlatMemory :=
  { memory := FlatMemory.zeroed.loadAll [(0x9000, [0xE8, 0x40]), (0xFFFE, [0x00, 0x90])]
    registers :=
      { programCounter := 0x1234
        stackPointer := 0x01
        status := { Status.clear with carry := true, negative := true } }
    irqRequested := true }

theorem atWrappingIrq_return_inverts :
    atWrappingIrq.Enters .irq ∧ atWrappingIrq.step.2.registers.stackPointer = 0xFE ∧
      atWrappingIrq.step.2.step.2.AboutTo .rti ∧
      Saves atWrappingIrq atWrappingIrq.step.2 .irq ∧
      atWrappingIrq.step.2.step.2.step.2.registers =
        { atWrappingIrq.registers with x := 0x01 } := by
  have enters : atWrappingIrq.Enters .irq := ⟨rfl, by decide +kernel⟩
  have aboutTo : atWrappingIrq.step.2.step.2.AboutTo .rti := by
    refine ⟨?_, ?_, ?_⟩ <;> decide +kernel
  obtain ⟨saves, returns⟩ := return_inverts_entry enters
  have returned := returns atWrappingIrq.step.2.step.2 aboutTo (by decide +kernel)
    (by decide +kernel)
  exact ⟨enters, by decide +kernel, aboutTo, saves, returned.trans (by decide +kernel)⟩

end Cpu

end Nmos6502
