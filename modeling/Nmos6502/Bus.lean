import Nmos6502.Addressing
import Nmos6502.Text.Hex

/-!
What a processor asks of the memory it is attached to, and the places in it that it finds by
itself: the vectors of the reset and of the interrupts, and the stack page.
-/

namespace Nmos6502

inductive BusFault
  | readOnlyWrite (address : UInt16) (value : UInt8)
  | unmapped (address : UInt16)
  deriving DecidableEq, Repr

namespace BusFault

def address : BusFault → UInt16
  | readOnlyWrite address _ => address
  | unmapped address => address

def message : BusFault → String
  | readOnlyWrite address value =>
      "write of 0x" ++ Hex.byte value ++ " to read-only address 0x" ++ Hex.word address
  | unmapped address => "access to unmapped address 0x" ++ Hex.word address

end BusFault

/-- Reading has no effect on the bus. A peek looks at a byte for display and may find that
there is none. A fault stays on the bus until it is cleared. -/
class Bus (β : Type) where
  read : β → UInt16 → UInt8
  write : β → UInt16 → UInt8 → β
  reset : β → β := id
  peek : β → UInt16 → Option UInt8 := fun bus address => some (read bus address)
  fault : β → Option BusFault := fun _ => none
  clearFault : β → β := id
  interruptLine : β → Bool := fun _ => false

inductive Interrupt
  /-- Requested by an edge; cannot be masked. -/
  | nmi
  /-- Requested by a level; waits while I is set. -/
  | irq
  | brk
  deriving DecidableEq, Repr

namespace Interrupt

def vector : Interrupt → UInt16
  | nmi => 0xFFFA
  | irq | brk => 0xFFFE

def cycles : Nat := 7

def text : Interrupt → String
  | nmi => "Nmi"
  | irq => "Irq"
  | brk => "Brk"

end Interrupt

def resetVector : UInt16 := 0xFFFC

def stackPage : UInt16 := 0x0100

def stackAddress (stackPointer : UInt8) : UInt16 :=
  stackPage ||| stackPointer.toUInt16

end Nmos6502
