import Nmos6502.Cpu.Perform

/-!
One step: the entry into an interrupt that is due, or else one instruction. A step that
the bus found fault with fails after all its effects; one that meets an illegal opcode
under the halting policy halts the processor and has no other effect.
-/

namespace Nmos6502.Cpu

variable {β : Type} [Bus β]

/-- The interrupt that the next step enters. I holds back only the maskable one. -/
def dueInterrupt (cpu : Cpu β) : Option Interrupt :=
  if cpu.nmiRequested then some .nmi
  else if !cpu.registers.status.interruptDisable && cpu.irqPending then some .irq
  else none

def begin (cpu : Cpu β) : Cpu β :=
  { cpu with
    accesses := []
    origin := ⟨cpu.registers.programCounter, cpu.counters.cycles⟩ }

/-- Ends a step with its cycles, unless the bus kept a fault; the fault is then taken. -/
def settle (cpu : Cpu β) (cycles : Nat) : Except StepError Nat × Cpu β :=
  match Bus.fault cpu.memory with
  | some fault => (.error (.bus fault), { cpu with memory := Bus.clearFault cpu.memory })
  | none => (.ok cycles, cpu)

def serviceInterrupt (cpu : Cpu β) (source : Interrupt) : Cpu β :=
  let entered := cpu.enterInterrupt source
  { entered with
    counters := { entered.counters with cycles := entered.counters.cycles + Interrupt.cycles }
    lastStep := .interrupt source }

def instructionCycles (opcode : Opcode) (status : Status) (pageCrossed : Bool) : Nat :=
  opcode.cycles + opcode.mnemonic.action.branchCycles status pageCrossed +
    (opcode.hasPagePenalty && pageCrossed).toNat

def opcodeByte (cpu : Cpu β) : UInt8 :=
  Bus.read cpu.memory cpu.registers.programCounter

def nextInstruction (cpu : Cpu β) : ExecutedInstruction :=
  let address := cpu.registers.programCounter
  let opcode := Opcode.ofByte cpu.opcodeByte
  let operand := Operand.resolve opcode.mode cpu.registers cpu.memory address
  { address
    opcode := cpu.opcodeByte
    operands := (Bus.read cpu.memory (address + 1), Bus.read cpu.memory (address + 2))
    size := opcode.size
    mnemonic := opcode.mnemonic
    cycles := instructionCycles opcode cpu.registers.status operand.pageCrossed
    sequence := cpu.counters.instructions + 1 }

def retire (cpu : Cpu β) (instruction : ExecutedInstruction) : Cpu β :=
  { cpu with
    counters := ⟨cpu.counters.cycles + instruction.cycles, instruction.sequence⟩
    lastInstruction := some instruction
    lastStep := .executed instruction }

def executeInstruction (cpu : Cpu β) : Cpu β :=
  let opcode := Opcode.ofByte cpu.opcodeByte
  let address := cpu.registers.programCounter
  let operand := Operand.resolve opcode.mode cpu.registers cpu.memory address
  let advanced := cpu.jumpTo (address + UInt16.ofNat opcode.size)
  (opcode.mnemonic.action.perform operand.place advanced).retire cpu.nextInstruction

def meetsIllegalOpcode (cpu : Cpu β) : Bool :=
  (Opcode.ofByte cpu.opcodeByte).isIllegal && cpu.config.illegal == .halt

def step (cpu : Cpu β) : Except StepError Nat × Cpu β :=
  let started := cpu.begin
  if cpu.halted then (.ok 0, { started with lastStep := .halted })
  else
    match cpu.dueInterrupt with
    | some source => (started.serviceInterrupt source).settle Interrupt.cycles
    | none =>
        if cpu.meetsIllegalOpcode then
          (.error (.illegalOpcode cpu.opcodeByte cpu.registers.programCounter),
            { started with halted := true, lastStep := .halted })
        else started.executeInstruction.settle cpu.nextInstruction.cycles

end Nmos6502.Cpu
