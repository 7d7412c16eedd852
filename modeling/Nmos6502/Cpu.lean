import Nmos6502.Bus
import Nmos6502.Mnemonic
import Nmos6502.Operand

/-!
The state of a processor: its registers and memory, the requests that wait for it, and
what it remembers for an observer of its last step.
-/

namespace Nmos6502

inductive IllegalPolicy
  | halt
  | skip
  deriving DecidableEq, Repr

structure CpuConfig where
  illegal : IllegalPolicy := .halt
  recordAccesses : Bool := true
  deriving DecidableEq, Repr

inductive AccessKind
  | read
  | write
  deriving DecidableEq, Repr

structure Access where
  kind : AccessKind
  address : UInt16
  value : UInt8
  deriving DecidableEq, Repr

structure Counters where
  cycles : Nat := 0
  instructions : Nat := 0
  deriving DecidableEq, Repr

structure Origin where
  programCounter : UInt16 := 0
  cycle : Nat := 0
  deriving DecidableEq, Repr

inductive WrapKind
  | overflow
  | underflow
  deriving DecidableEq, Repr

structure StackWrap where
  kind : WrapKind
  origin : Origin
  deriving DecidableEq, Repr

structure ExecutedInstruction where
  address : UInt16
  opcode : UInt8
  operands : UInt8 × UInt8
  size : Nat
  mnemonic : Mnemonic
  cycles : Nat
  sequence : Nat
  deriving DecidableEq, Repr

namespace ExecutedInstruction

def operandBytes (instruction : ExecutedInstruction) : List UInt8 :=
  Nmos6502.operandBytes instruction.operands instruction.size

end ExecutedInstruction

inductive StepRecord
  | nothing
  | executed (instruction : ExecutedInstruction)
  | interrupt (source : Interrupt)
  | halted
  deriving DecidableEq, Repr

inductive StepError
  | illegalOpcode (opcode : UInt8) (address : UInt16)
  | bus (fault : BusFault)
  deriving DecidableEq, Repr

def StepError.message : StepError → String
  | illegalOpcode opcode address =>
      "illegal opcode 0x" ++ Hex.byte opcode ++ " at 0x" ++ Hex.word address
  | bus fault => "bus fault: " ++ fault.message

structure Cpu (β : Type) where
  memory : β
  config : CpuConfig := {}
  registers : Registers := {}
  counters : Counters := {}
  halted : Bool := false
  nmiRequested : Bool := false
  irqRequested : Bool := false
  stackWraps : Nat := 0
  lastStackWrap : Option StackWrap := none
  origin : Origin := {}
  lastStep : StepRecord := .nothing
  lastInstruction : Option ExecutedInstruction := none
  accesses : List Access := []

namespace Cpu

variable {β : Type} [Bus β]

/-- Starts at the address in the reset vector with I set and a fresh stack pointer. A, X, Y,
the other flags and the memory stay as they are. -/
def reset (cpu : Cpu β) : Cpu β :=
  { cpu with
    registers := { cpu.registers with
      programCounter := Operand.readWord cpu.memory resetVector
      stackPointer := Registers.resetStackPointer
      status := { cpu.registers.status with interruptDisable := true } }
    counters := {}
    halted := false
    nmiRequested := false
    irqRequested := false
    stackWraps := 0
    lastStackWrap := none
    lastStep := .nothing
    lastInstruction := none
    accesses := [] }

def create (memory : β) (config : CpuConfig) : Cpu β :=
  reset { memory, config }

def mapRegisters (cpu : Cpu β) (update : Registers → Registers) : Cpu β :=
  { cpu with registers := update cpu.registers }

def jumpTo (cpu : Cpu β) (address : UInt16) : Cpu β :=
  cpu.mapRegisters fun registers => { registers with programCounter := address }

def requestIrq (cpu : Cpu β) : Cpu β :=
  { cpu with irqRequested := true }

def withdrawIrq (cpu : Cpu β) : Cpu β :=
  { cpu with irqRequested := false }

def requestNmi (cpu : Cpu β) : Cpu β :=
  { cpu with nmiRequested := true }

def irqPending (cpu : Cpu β) : Bool :=
  cpu.irqRequested || Bus.interruptLine cpu.memory

end Cpu

end Nmos6502
