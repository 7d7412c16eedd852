import Nmos6502.Cpu

/-!
The processor's own traffic on the bus: data accesses, which are recorded, and the stack.
-/

namespace Nmos6502.Cpu

variable {β : Type} [Bus β]

def record (cpu : Cpu β) (access : Access) : Cpu β :=
  if cpu.config.recordAccesses then { cpu with accesses := cpu.accesses ++ [access] } else cpu

def read (cpu : Cpu β) (address : UInt16) : UInt8 × Cpu β :=
  let value := Bus.read cpu.memory address
  (value, cpu.record ⟨.read, address, value⟩)

/-- The record holds the value that was sent, whether or not the bus took it. -/
def write (cpu : Cpu β) (address : UInt16) (value : UInt8) : Cpu β :=
  let written := { cpu with memory := Bus.write cpu.memory address value }
  written.record ⟨.write, address, value⟩

def load (cpu : Cpu β) : Place → UInt8 × Cpu β
  | .nowhere => (0, cpu)
  | .accumulator => (cpu.registers.a, cpu)
  | .constant value => (value, cpu)
  | .cell address => cpu.read address

def store (cpu : Cpu β) (place : Place) (value : UInt8) : Cpu β :=
  match place with
  | .nowhere | .constant _ => cpu
  | .accumulator => cpu.mapRegisters fun registers => { registers with a := value }
  | .cell address => cpu.write address value

def noteStackWrap (cpu : Cpu β) (kind : WrapKind) : Cpu β :=
  { cpu with
    stackWraps := cpu.stackWraps + 1
    lastStackWrap := some ⟨kind, cpu.origin⟩ }

def setStackPointer (cpu : Cpu β) (stackPointer : UInt8) : Cpu β :=
  cpu.mapRegisters fun registers => { registers with stackPointer }

def pushByte (cpu : Cpu β) (value : UInt8) : Cpu β :=
  let stackPointer := cpu.registers.stackPointer
  let written := cpu.write (stackAddress stackPointer) value
  let noted := if stackPointer = 0x00 then written.noteStackWrap .overflow else written
  noted.setStackPointer (stackPointer - 1)

def pullByte (cpu : Cpu β) : UInt8 × Cpu β :=
  let stackPointer := cpu.registers.stackPointer
  let noted := if stackPointer = 0xFF then cpu.noteStackWrap .underflow else cpu
  (noted.setStackPointer (stackPointer + 1)).read (stackAddress (stackPointer + 1))

def pushWord (cpu : Cpu β) (value : UInt16) : Cpu β :=
  (cpu.pushByte (highByte value)).pushByte (lowByte value)

def pullWord (cpu : Cpu β) : UInt16 × Cpu β :=
  let (low, afterLow) := cpu.pullByte
  let (high, afterHigh) := afterLow.pullByte
  (wordOf low high, afterHigh)

end Nmos6502.Cpu
