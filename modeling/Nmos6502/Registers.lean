import Nmos6502.Text.Hex
import Nmos6502.Text.Quoted

/-!
The registers that a program can see. The processor status has seven flags, the byte that packs
them, and the names by which they are known; the unused bit has no storage and always reads as
set.
-/

namespace Nmos6502

inductive Flag
  | carry
  | zero
  | interruptDisable
  | decimal
  | breakCommand
  | unused
  | overflow
  | negative
  deriving DecidableEq, Repr

structure UnknownFlag where
  name : String
  deriving DecidableEq, Repr

def UnknownFlag.message (error : UnknownFlag) : String :=
  "unknown status flag name: " ++ Quoted.quote error.name

namespace Flag

def all : List Flag :=
  [carry, zero, interruptDisable, decimal, breakCommand, unused, overflow, negative]

def mask : Flag → UInt8
  | carry => 0x01
  | zero => 0x02
  | interruptDisable => 0x04
  | decimal => 0x08
  | breakCommand => 0x10
  | unused => 0x20
  | overflow => 0x40
  | negative => 0x80

def letter : Flag → Char
  | carry => 'C'
  | zero => 'Z'
  | interruptDisable => 'I'
  | decimal => 'D'
  | breakCommand => 'B'
  | unused => '-'
  | overflow => 'V'
  | negative => 'N'

def names : Flag → List String
  | carry => ["c", "carry"]
  | zero => ["z", "zero"]
  | interruptDisable => ["i", "interrupt", "interrupt_disable", "irq_disable"]
  | decimal => ["d", "decimal"]
  | breakCommand => ["b", "break"]
  | unused => ["u", "unused"]
  | overflow => ["v", "overflow"]
  | negative => ["n", "negative"]

def title : Flag → String
  | carry => "Carry"
  | zero => "Zero"
  | interruptDisable => "InterruptDisable"
  | decimal => "Decimal"
  | breakCommand => "Break"
  | unused => "Unused"
  | overflow => "Overflow"
  | negative => "Negative"

/-- Names count without the blanks around them and in either case. -/
def parse (text : String) : Except UnknownFlag Flag :=
  match all.find? fun flag => flag.names.contains (Blank.trim text).toLower with
  | some flag => .ok flag
  | none => .error ⟨text⟩

end Flag

structure Status where
  negative : Bool
  overflow : Bool
  breakCommand : Bool
  decimal : Bool
  interruptDisable : Bool
  zero : Bool
  carry : Bool
  deriving DecidableEq, Repr

namespace Status

def clear : Status :=
  ⟨false, false, false, false, false, false, false⟩

instance : Inhabited Status := ⟨clear⟩

def get (status : Status) : Flag → Bool
  | .carry => status.carry
  | .zero => status.zero
  | .interruptDisable => status.interruptDisable
  | .decimal => status.decimal
  | .breakCommand => status.breakCommand
  | .unused => true
  | .overflow => status.overflow
  | .negative => status.negative

def set (status : Status) (flag : Flag) (value : Bool) : Status :=
  match flag with
  | .carry => { status with carry := value }
  | .zero => { status with zero := value }
  | .interruptDisable => { status with interruptDisable := value }
  | .decimal => { status with decimal := value }
  | .breakCommand => { status with breakCommand := value }
  | .unused => status
  | .overflow => { status with overflow := value }
  | .negative => { status with negative := value }

theorem get_set (status : Status) (flag other : Flag) (value : Bool) :
    (status.set flag value).get other =
      if other = flag ∧ flag ≠ .unused then value else status.get other := by
  cases flag <;> cases other <;> simp [get, set]

theorem ext_get {left right : Status} (same : ∀ flag, left.get flag = right.get flag) :
    left = right := by
  cases left
  cases right
  simp only [mk.injEq]
  exact ⟨same .negative, same .overflow, same .breakCommand, same .decimal,
    same .interruptDisable, same .zero, same .carry⟩

def pack (status : Status) : UInt8 :=
  Flag.all.foldl (fun packed flag => if status.get flag then packed ||| flag.mask else packed) 0

def unpack (byte : UInt8) : Status where
  negative := byte &&& Flag.negative.mask != 0
  overflow := byte &&& Flag.overflow.mask != 0
  breakCommand := byte &&& Flag.breakCommand.mask != 0
  decimal := byte &&& Flag.decimal.mask != 0
  interruptDisable := byte &&& Flag.interruptDisable.mask != 0
  zero := byte &&& Flag.zero.mask != 0
  carry := byte &&& Flag.carry.mask != 0

theorem unpack_pack (status : Status) : unpack status.pack = status := by
  rcases status with ⟨n, v, b, d, i, z, c⟩
  cases n <;> cases v <;> cases b <;> cases d <;> cases i <;> cases z <;> cases c <;> rfl

theorem mask_pack (status : Status) (flag : Flag) :
    (status.pack &&& flag.mask != 0) = status.get flag := by
  have unpacked := status.unpack_pack
  cases flag with
  | unused =>
      rcases status with ⟨n, v, b, d, i, z, c⟩
      cases n <;> cases v <;> cases b <;> cases d <;> cases i <;> cases z <;> cases c <;> rfl
  | carry => exact congrArg carry unpacked
  | zero => exact congrArg zero unpacked
  | interruptDisable => exact congrArg interruptDisable unpacked
  | decimal => exact congrArg decimal unpacked
  | breakCommand => exact congrArg breakCommand unpacked
  | overflow => exact congrArg overflow unpacked
  | negative => exact congrArg negative unpacked

def describe (status : Status) (result : UInt8) : Status :=
  { status with zero := result == 0, negative := result &&& 0x80 != 0 }

def text (status : Status) : String :=
  String.ofList (Flag.all.reverse.map fun flag => if status.get flag then flag.letter else '.')

end Status

structure Registers where
  a : UInt8 := 0
  x : UInt8 := 0
  y : UInt8 := 0
  stackPointer : UInt8 := 0
  programCounter : UInt16 := 0
  status : Status := Status.clear
  deriving DecidableEq, Repr, Inhabited

namespace Registers

def resetStackPointer : UInt8 := 0xFD

def text (registers : Registers) : String :=
  "A:" ++ Hex.byte registers.a ++ " X:" ++ Hex.byte registers.x ++ " Y:" ++ Hex.byte registers.y ++
    " SP:" ++ Hex.byte registers.stackPointer ++ " PC:" ++ Hex.word registers.programCounter ++
    " P:" ++ registers.status.text

def loadA (registers : Registers) (value : UInt8) : Registers :=
  { registers with a := value, status := registers.status.describe value }

def loadX (registers : Registers) (value : UInt8) : Registers :=
  { registers with x := value, status := registers.status.describe value }

def loadY (registers : Registers) (value : UInt8) : Registers :=
  { registers with y := value, status := registers.status.describe value }

end Registers

end Nmos6502
