import Nmos6502.Arithmetic
import Nmos6502.Mnemonic

/-!
What each instruction does, apart from where its operand lies. An action says how the
operand takes part (read, written, changed in place, used as a target, moved over the
stack) and how the registers change; the processor supplies the operand and the bus.
-/

namespace Nmos6502

inductive Action
  | read (use : Registers → UInt8 → Registers)
  | write (source : Registers → UInt8)
  | modify (transform : Status → UInt8 → UInt8 × Status)
  | internal (update : Registers → Registers)
  | branch (condition : Status → Bool)
  | push (source : Registers → UInt8)
  | pull (use : Registers → UInt8 → Registers)
  | jump
  | call
  | subroutineReturn
  | interruptReturn
  | softwareInterrupt

namespace Action

def shifted (status : Status) (result : UInt8) (carry : Bool) : UInt8 × Status :=
  (result, { status.describe result with carry := carry })

def shiftLeft (status : Status) (value : UInt8) : UInt8 × Status :=
  shifted status (value <<< 1) (value &&& 0x80 != 0)

def shiftRight (status : Status) (value : UInt8) : UInt8 × Status :=
  shifted status (value >>> 1) (value &&& 0x01 != 0)

def rotateLeft (status : Status) (value : UInt8) : UInt8 × Status :=
  shifted status (value <<< 1 ||| (if status.carry then 0x01 else 0)) (value &&& 0x80 != 0)

def rotateRight (status : Status) (value : UInt8) : UInt8 × Status :=
  shifted status (value >>> 1 ||| (if status.carry then 0x80 else 0)) (value &&& 0x01 != 0)

def described (status : Status) (result : UInt8) : UInt8 × Status :=
  (result, status.describe result)

end Action

namespace Registers

def setFlag (registers : Registers) (flag : Flag) (value : Bool) : Registers :=
  { registers with status := registers.status.set flag value }

def pushedStatus (registers : Registers) : UInt8 :=
  registers.status.pack ||| Flag.breakCommand.mask

/-- Takes a pulled status byte in; B stays as it is. -/
def restoreStatus (registers : Registers) (byte : UInt8) : Registers :=
  { registers with
    status := { Status.unpack byte with breakCommand := registers.status.breakCommand } }

end Registers

def Mnemonic.action : Mnemonic → Action
  | adc => .read Registers.add
  | sbc => .read Registers.subtract
  | and => .read fun registers value => registers.loadA (registers.a &&& value)
  | ora => .read fun registers value => registers.loadA (registers.a ||| value)
  | eor => .read fun registers value => registers.loadA (registers.a ^^^ value)
  | cmp => .read fun registers value => registers.compare registers.a value
  | cpx => .read fun registers value => registers.compare registers.x value
  | cpy => .read fun registers value => registers.compare registers.y value
  | bit => .read Registers.testBits
  | lda => .read Registers.loadA
  | ldx => .read Registers.loadX
  | ldy => .read Registers.loadY
  | sta => .write Registers.a
  | stx => .write Registers.x
  | sty => .write Registers.y
  | asl => .modify Action.shiftLeft
  | lsr => .modify Action.shiftRight
  | rol => .modify Action.rotateLeft
  | ror => .modify Action.rotateRight
  | inc => .modify fun status value => Action.described status (value + 1)
  | dec => .modify fun status value => Action.described status (value - 1)
  | inx => .internal fun registers => registers.loadX (registers.x + 1)
  | iny => .internal fun registers => registers.loadY (registers.y + 1)
  | dex => .internal fun registers => registers.loadX (registers.x - 1)
  | dey => .internal fun registers => registers.loadY (registers.y - 1)
  | tax => .internal fun registers => registers.loadX registers.a
  | tay => .internal fun registers => registers.loadY registers.a
  | txa => .internal fun registers => registers.loadA registers.x
  | tya => .internal fun registers => registers.loadA registers.y
  | tsx => .internal fun registers => registers.loadX registers.stackPointer
  | txs => .internal fun registers => { registers with stackPointer := registers.x }
  | clc => .internal fun registers => registers.setFlag .carry false
  | sec => .internal fun registers => registers.setFlag .carry true
  | cli => .internal fun registers => registers.setFlag .interruptDisable false
  | sei => .internal fun registers => registers.setFlag .interruptDisable true
  | cld => .internal fun registers => registers.setFlag .decimal false
  | sed => .internal fun registers => registers.setFlag .decimal true
  | clv => .internal fun registers => registers.setFlag .overflow false
  | nop | illegal => .internal fun registers => registers
  | bcc => .branch fun status => !status.carry
  | bcs => .branch fun status => status.carry
  | bne => .branch fun status => !status.zero
  | beq => .branch fun status => status.zero
  | bpl => .branch fun status => !status.negative
  | bmi => .branch fun status => status.negative
  | bvc => .branch fun status => !status.overflow
  | bvs => .branch fun status => status.overflow
  | pha => .push Registers.a
  | php => .push Registers.pushedStatus
  | pla => .pull Registers.loadA
  | plp => .pull Registers.restoreStatus
  | jmp => .jump
  | jsr => .call
  | rts => .subroutineReturn
  | rti => .interruptReturn
  | brk => .softwareInterrupt

def Mnemonic.isBranch (mnemonic : Mnemonic) : Bool :=
  match mnemonic.action with
  | .branch _ => true
  | _ => false

end Nmos6502
