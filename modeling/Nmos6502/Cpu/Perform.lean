import Nmos6502.Action
import Nmos6502.Cpu.Access

/-!
Actions carried out: the operand is fetched or stored, the registers change, and control
moves. The program counter has already passed the instruction.
-/

namespace Nmos6502

namespace Cpu

variable {β : Type} [Bus β]

def setStatus (cpu : Cpu β) (status : Status) : Cpu β :=
  cpu.mapRegisters fun registers => { registers with status }

def interruptStatus (status : Status) (source : Interrupt) : UInt8 :=
  ({ status with breakCommand := source == .brk } : Status).pack

def acknowledge (cpu : Cpu β) : Interrupt → Cpu β
  | .nmi => { cpu with nmiRequested := false }
  | .irq => { cpu with irqRequested := false }
  | .brk => cpu

/-- Saves the program counter and the status on the stack, sets I, and continues at the
address in the source's vector, which is read after the pushes. -/
def enterInterrupt (cpu : Cpu β) (source : Interrupt) : Cpu β :=
  let status := cpu.registers.status
  let pushed := (cpu.pushWord cpu.registers.programCounter).pushByte (interruptStatus status source)
  let masked := pushed.setStatus { status with interruptDisable := true }
  (masked.jumpTo (Operand.readWord masked.memory source.vector)).acknowledge source

end Cpu

namespace Action

variable {β : Type} [Bus β]

def follow (place : Place) (cpu : Cpu β) : Cpu β :=
  match place with
  | .cell target => cpu.jumpTo target
  | _ => cpu

def perform (action : Action) (place : Place) (cpu : Cpu β) : Cpu β :=
  match action with
  | .read use =>
      let (value, loaded) := cpu.load place
      loaded.mapRegisters fun registers => use registers value
  | .write source => cpu.store place (source cpu.registers)
  | .modify transform =>
      let (value, loaded) := cpu.load place
      let (result, status) := transform loaded.registers.status value
      (loaded.store place result).setStatus status
  | .internal update => cpu.mapRegisters update
  | .branch condition => if condition cpu.registers.status then follow place cpu else cpu
  | .push source => cpu.pushByte (source cpu.registers)
  | .pull use =>
      let (value, pulled) := cpu.pullByte
      pulled.mapRegisters fun registers => use registers value
  | .jump => follow place cpu
  | .call => follow place (cpu.pushWord (cpu.registers.programCounter - 1))
  | .subroutineReturn =>
      let (address, pulled) := cpu.pullWord
      pulled.jumpTo (address + 1)
  | .interruptReturn =>
      let (byte, pulled) := cpu.pullByte
      let restored := pulled.mapRegisters fun registers => registers.restoreStatus byte
      let (address, returned) := restored.pullWord
      returned.jumpTo address
  | .softwareInterrupt =>
      (cpu.jumpTo (cpu.registers.programCounter + 1)).enterInterrupt .brk

def branchCycles (action : Action) (status : Status) (pageCrossed : Bool) : Nat :=
  match action with
  | .branch condition => if condition status then 1 + pageCrossed.toNat else 0
  | _ => 0

end Action

end Nmos6502
