import Nmos6502.Bus
import Nmos6502.Opcode
import Nmos6502.Registers

/-!
Where the operand of an instruction lies, worked out from the bytes after the opcode,
the index registers and, for indirect modes, pointers in memory.
-/

namespace Nmos6502

inductive Place
  | nowhere
  | accumulator
  | constant (value : UInt8)
  | cell (address : UInt16)
  deriving DecidableEq, Repr

structure Operand where
  place : Place
  pageCrossed : Bool := false
  deriving DecidableEq, Repr

namespace Operand

variable {β : Type} [Bus β]

def readWord (memory : β) (address : UInt16) : UInt16 :=
  wordOf (Bus.read memory address) (Bus.read memory (address + 1))

def readZeroPagePointer (memory : β) (address : UInt8) : UInt16 :=
  wordOf (Bus.read memory address.toUInt16) (Bus.read memory (address + 1).toUInt16)

/-- A pointer of a jump, whose two bytes lie on one page: the first byte of a page follows
its last. -/
def readJumpPointer (memory : β) (address : UInt16) : UInt16 :=
  wordOf (Bus.read memory address)
    (Bus.read memory (pageOf address ||| (address + 1) &&& 0x00FF))

def indexed (base : UInt16) (index : UInt8) : Operand :=
  let address := base + index.toUInt16
  { place := .cell address, pageCrossed := pageOf base != pageOf address }

def signExtend (offset : UInt8) : UInt16 :=
  if offset < 0x80 then offset.toUInt16 else offset.toUInt16 + 0xFF00

def branchTarget (address : UInt16) (offset : UInt8) : UInt16 :=
  address + 2 + signExtend offset

def resolve (mode : AddressingMode) (registers : Registers) (memory : β) (address : UInt16) :
    Operand :=
  let byte := Bus.read memory (address + 1)
  let word := readWord memory (address + 1)
  match mode with
  | .implicit => { place := .nowhere }
  | .accumulator => { place := .accumulator }
  | .immediate => { place := .constant byte }
  | .zeroPage => { place := .cell byte.toUInt16 }
  | .zeroPageX => { place := .cell (byte + registers.x).toUInt16 }
  | .zeroPageY => { place := .cell (byte + registers.y).toUInt16 }
  | .relative =>
      let target := branchTarget address byte
      { place := .cell target, pageCrossed := pageOf (address + 2) != pageOf target }
  | .absolute => { place := .cell word }
  | .absoluteX => indexed word registers.x
  | .absoluteY => indexed word registers.y
  | .indirect => { place := .cell (readJumpPointer memory word) }
  | .indirectX => { place := .cell (readZeroPagePointer memory (byte + registers.x)) }
  | .indirectY => indexed (readZeroPagePointer memory byte) registers.y

end Operand

end Nmos6502
