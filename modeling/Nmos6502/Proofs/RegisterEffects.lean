import Nmos6502.Proofs.Interrupts

/-!
The registers after each kind of action and after each kind of step, told from the registers
and the memory before it.
-/

namespace Nmos6502

namespace Place

def stored (registers : Registers) (value : UInt8) : Place → Registers
  | accumulator => { registers with a := value }
  | nowhere | constant _ | cell _ => registers

def entered (registers : Registers) : Place → Registers
  | cell target => { registers with programCounter := target }
  | nowhere | accumulator | constant _ => registers

end Place

namespace Cpu

section

variable {β : Type}

theorem acknowledge_registers (cpu : Cpu β) (source : Interrupt) :
    (cpu.acknowledge source).registers = cpu.registers := by
  cases source <;> rfl

theorem acknowledge_memory (cpu : Cpu β) (source : Interrupt) :
    (cpu.acknowledge source).memory = cpu.memory := by
  cases source <;> rfl

theorem follow_registers (place : Place) (cpu : Cpu β) :
    (Action.follow place cpu).registers = place.entered cpu.registers := by
  cases place <;> rfl

end

variable {β : Type} [Bus β]

def stackedWord (memory : β) (stackPointer : UInt8) : UInt16 :=
  wordOf (Bus.read memory (stackAddress (stackPointer + 1)))
    (Bus.read memory (stackAddress (stackPointer + 1 + 1)))

/-- The registers in an interrupt's handler. Its address is read when the pushes are done. -/
def enteredRegisters (memory : β) (registers : Registers) (source : Interrupt) : Registers :=
  { registers with
    stackPointer := registers.stackPointer - 1 - 1 - 1
    status := { registers.status with interruptDisable := true }
    programCounter :=
      Operand.readWord (Access.replay memory (entryAccesses registers source)) source.vector }

theorem store_registers (cpu : Cpu β) (place : Place) (value : UInt8) :
    (cpu.store place value).registers = place.stored cpu.registers value := by
  cases place with
  | cell address => exact record_registers _ _
  | nowhere | accumulator | constant _ => rfl

theorem pullByte_value (cpu : Cpu β) :
    cpu.pullByte.1 = Bus.read cpu.memory (stackAddress (cpu.registers.stackPointer + 1)) := by
  simp only [pullByte, read]
  split <;> rfl

theorem pullWord_registers (cpu : Cpu β) :
    cpu.pullWord.2.registers =
      { cpu.registers with stackPointer := cpu.registers.stackPointer + 1 + 1 } := by
  simp only [pullWord, pullByte_registers]

theorem pullWord_value (cpu : Cpu β) :
    cpu.pullWord.1 = stackedWord cpu.memory cpu.registers.stackPointer := by
  simp only [pullWord, pullByte_value, pullByte_registers, pullByte_memory, stackedWord]

theorem enterInterrupt_registers (cpu : Cpu β) (source : Interrupt) :
    (cpu.enterInterrupt source).registers = enteredRegisters cpu.memory cpu.registers source := by
  have memory := (enterInterrupt_logged cpu source).memory
  simp only [enterInterrupt, acknowledge_memory, jumpTo, setStatus, mapRegisters] at memory
  simp only [enterInterrupt, acknowledge_registers, jumpTo, setStatus, mapRegisters, memory,
    pushByte_registers, pushWord_registers, enteredRegisters]

end Cpu

namespace Action

variable {β : Type} [Bus β]

def registersAfter (memory : β) (registers : Registers) (place : Place) : Action → Registers
  | read use => use registers (place.value registers memory)
  | write source => place.stored registers (source registers)
  | modify transform =>
      let (result, status) := transform registers.status (place.value registers memory)
      { place.stored registers result with status }
  | internal update => update registers
  | branch condition => if condition registers.status then place.entered registers else registers
  | push _ => { registers with stackPointer := registers.stackPointer - 1 }
  | pull use =>
      use { registers with stackPointer := registers.stackPointer + 1 }
        (Bus.read memory (stackAddress (registers.stackPointer + 1)))
  | jump => place.entered registers
  | call => place.entered { registers with stackPointer := registers.stackPointer - 1 - 1 }
  | subroutineReturn =>
      { registers with
        stackPointer := registers.stackPointer + 1 + 1
        programCounter := Cpu.stackedWord memory registers.stackPointer + 1 }
  | interruptReturn =>
      { registers.restoreStatus
          (Bus.read memory (stackAddress (registers.stackPointer + 1))) with
        stackPointer := registers.stackPointer + 1 + 1 + 1
        programCounter := Cpu.stackedWord memory (registers.stackPointer + 1) }
  | softwareInterrupt =>
      Cpu.enteredRegisters memory
        { registers with programCounter := registers.programCounter + 1 } .brk

theorem perform_registers (action : Action) (place : Place) (cpu : Cpu β) :
    (action.perform place cpu).registers =
      action.registersAfter cpu.memory cpu.registers place := by
  cases action with
  | read use =>
      simp only [perform, Cpu.mapRegisters, Cpu.load_registers, Cpu.load_value, registersAfter]
  | write source => exact Cpu.store_registers cpu place _
  | modify transform =>
      simp only [perform, Cpu.setStatus, Cpu.mapRegisters, Cpu.store_registers, Cpu.load_registers,
        Cpu.load_value, registersAfter]
  | internal update => rfl
  | branch condition =>
      simp only [perform, registersAfter]
      split
      · exact Cpu.follow_registers place cpu
      · rfl
  | push source => exact Cpu.pushByte_registers cpu _
  | pull use =>
      simp only [perform, Cpu.mapRegisters, Cpu.pullByte_registers, Cpu.pullByte_value,
        registersAfter]
  | jump => exact Cpu.follow_registers place cpu
  | call => simp only [perform, Cpu.follow_registers, Cpu.pushWord_registers, registersAfter]
  | subroutineReturn =>
      simp only [perform, Cpu.jumpTo, Cpu.mapRegisters, Cpu.pullWord_registers,
        Cpu.pullWord_value, registersAfter]
  | interruptReturn =>
      simp only [perform, Cpu.jumpTo, Cpu.pullWord_registers, Cpu.mapRegisters,
        Cpu.pullWord_value, Cpu.pullByte_registers, Cpu.pullByte_memory, Cpu.pullByte_value,
        registersAfter]
      rfl
  | softwareInterrupt => exact Cpu.enterInterrupt_registers _ .brk

end Action

namespace Place

variable (registers : Registers) (value : UInt8) (place : Place)

theorem exists_entered : ∃ target,
    place.entered registers = { registers with programCounter := target } := by
  cases place with
  | cell target => exact ⟨target, rfl⟩
  | nowhere | accumulator | constant _ => exact ⟨registers.programCounter, rfl⟩

theorem value_elsewhere {β : Type} [Bus β] (memory : β) (programCounter : UInt16) :
    place.value { registers with programCounter } memory = place.value registers memory := by
  cases place <;> rfl

theorem exists_stored : ∃ a, place.stored registers value = { registers with a } ∧
    (place ≠ .accumulator → a = registers.a) ∧ (place = .accumulator → a = value) := by
  cases place with
  | accumulator => exact ⟨value, rfl, by simp, by simp⟩
  | nowhere | constant _ | cell _ => exact ⟨registers.a, rfl, by simp, by simp⟩

end Place

namespace Action

variable {β : Type} [Bus β] (memory : β) (registers : Registers) (place : Place)

/-- Actions that steer the program counter or store a register, and do no more. -/
def isSteady : Action → Bool
  | write _ | branch _ | jump => true
  | _ => false

theorem exists_steady (action : Action) (steady : action.isSteady = true) : ∃ a target,
    action.registersAfter memory registers place =
      { registers with a, programCounter := target } ∧
    (place ≠ .accumulator → a = registers.a) := by
  cases action with
  | write source =>
      obtain ⟨a, stored, elsewhere, _⟩ := place.exists_stored registers (source registers)
      exact ⟨a, registers.programCounter, stored, elsewhere⟩
  | branch condition =>
      obtain ⟨target, entered⟩ := place.exists_entered registers
      rw [registersAfter]
      split
      · exact ⟨registers.a, target, entered, fun _ => rfl⟩
      · exact ⟨registers.a, registers.programCounter, rfl, fun _ => rfl⟩
  | jump =>
      obtain ⟨target, entered⟩ := place.exists_entered registers
      exact ⟨registers.a, target, entered, fun _ => rfl⟩
  | _ => simp [isSteady] at steady

theorem exists_modified (transform : Status → UInt8 → UInt8 × Status) : ∃ a,
    (modify transform).registersAfter memory registers place =
      { registers with
        a
        status := (transform registers.status (place.value registers memory)).2 } ∧
    (place ≠ .accumulator → a = registers.a) ∧
    (place = .accumulator →
      a = (transform registers.status (place.value registers memory)).1) := by
  obtain ⟨a, stored, elsewhere, here⟩ := place.exists_stored registers
    (transform registers.status (place.value registers memory)).1
  exact ⟨a, by simp only [registersAfter, stored], elsewhere, here⟩

theorem exists_called : ∃ target,
    call.registersAfter memory registers place =
      { registers with
        stackPointer := registers.stackPointer - 1 - 1
        programCounter := target } := by
  obtain ⟨target, entered⟩ := place.exists_entered
    { registers with stackPointer := registers.stackPointer - 1 - 1 }
  exact ⟨target, entered⟩

/-- Actions that put what they compute into registers of their own choice. -/
def isCustom : Action → Bool
  | read _ | internal _ | pull _ => true
  | _ => false

structure Spares (place : Place) (before after : Registers) : Prop where
  a : place ≠ .accumulator → after.a = before.a
  x : after.x = before.x
  y : after.y = before.y

theorem spares (action : Action) (fixed : action.isCustom = false) :
    Spares place registers (action.registersAfter memory registers place) := by
  have steady := exists_steady memory registers place action
  cases action with
  | read | internal | pull => simp [isCustom] at fixed
  | write | branch | jump =>
      obtain ⟨_, _, same, kept⟩ := steady rfl
      rw [same]
      exact ⟨kept, rfl, rfl⟩
  | modify transform =>
      obtain ⟨_, modified, kept, _⟩ := exists_modified memory registers place transform
      rw [modified]
      exact ⟨kept, rfl, rfl⟩
  | call =>
      obtain ⟨_, called⟩ := exists_called memory registers place
      rw [called]
      exact ⟨fun _ => rfl, rfl, rfl⟩
  | push | subroutineReturn | interruptReturn | softwareInterrupt =>
      exact ⟨fun _ => rfl, rfl, rfl⟩

end Action

namespace Cpu

variable {β : Type} [Bus β]

def advancedRegisters (cpu : Cpu β) : Registers :=
  { cpu.registers with
    programCounter :=
      cpu.registers.programCounter + UInt16.ofNat (Opcode.ofByte cpu.opcodeByte).size }

def nextOperand (cpu : Cpu β) : Operand :=
  Operand.resolve (Opcode.ofByte cpu.opcodeByte).mode cpu.registers cpu.memory
    cpu.registers.programCounter

theorem executeInstruction_registers (cpu : Cpu β) :
    cpu.executeInstruction.registers =
      (Opcode.ofByte cpu.opcodeByte).mnemonic.action.registersAfter cpu.memory
        cpu.advancedRegisters cpu.nextOperand.place :=
  Action.perform_registers _ _ _

/-- A step that has executed an instruction. -/
structure Executes (cpu : Cpu β) (executed : ExecutedInstruction) : Prop where
  running : cpu.halted = false
  free : cpu.dueInterrupt = none
  legal : cpu.meetsIllegalOpcode = false
  instruction : executed = cpu.nextInstruction
  registers : cpu.step.2.registers =
    (Opcode.ofByte cpu.opcodeByte).mnemonic.action.registersAfter cpu.memory
      cpu.advancedRegisters cpu.nextOperand.place
  remembered : cpu.step.2.lastInstruction = some executed

theorem settle_lastInstruction (cpu : Cpu β) (cycles : Nat) :
    (cpu.settle cycles).2.lastInstruction = cpu.lastInstruction := by
  simp only [settle]
  split <;> rfl

theorem executes_of_lastStep {cpu : Cpu β} {executed : ExecutedInstruction}
    (last : cpu.step.2.lastStep = .executed executed) : cpu.Executes executed := by
  rcases cpu.step_cases with ⟨halted, stepped⟩ | ⟨source, running, due, stepped⟩ |
    ⟨running, due, illegal, stepped⟩ | ⟨running, due, legal, stepped⟩
  · simp [stepped] at last
  · rw [stepped, settle_lastStep] at last
    simp [serviceInterrupt] at last
  · simp [stepped] at last
  · have same : executed = cpu.nextInstruction := by
      rw [stepped, settle_lastStep] at last
      exact (StepRecord.executed.inj last).symm
    refine ⟨running, due, legal, same, ?_, ?_⟩
    · rw [stepped, settle_registers]
      exact cpu.begin.executeInstruction_registers
    · rw [stepped, settle_lastInstruction, same]
      rfl

end Cpu

end Nmos6502
