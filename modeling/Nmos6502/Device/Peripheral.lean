import Nmos6502.Device.Storage

/-!
A device that interrupts and one that counts, and one type for all the devices of this library,
so that a memory can hold several kinds.
-/

namespace Nmos6502

structure Latch where
  value : UInt8

instance : Device Latch where
  read latch _ := latch.value
  write _ _ value := ⟨value⟩
  size _ := 1
  reset _ := ⟨0⟩
  interruptLine latch := latch.value != 0

/-- Counts the writes it receives and keeps counting over a reset. Each of its addresses reads as the
count plus the offset. -/
structure WriteCounter where
  size : UInt32
  count : Nat := 0

instance : Device WriteCounter where
  read counter offset := UInt8.ofNat (counter.count + offset.toNat)
  write counter _ _ := { counter with count := counter.count + 1 }
  size counter := counter.size

inductive Peripheral
  | ram (device : Ram)
  | rom (device : Rom)
  | latch (device : Latch)
  | writeCounter (device : WriteCounter)

namespace Peripheral

def read : Peripheral → UInt16 → UInt8
  | ram device, offset => Device.read device offset
  | rom device, offset => Device.read device offset
  | latch device, offset => Device.read device offset
  | writeCounter device, offset => Device.read device offset

def write : Peripheral → UInt16 → UInt8 → Peripheral
  | ram device, offset, value => ram (Device.write device offset value)
  | rom device, offset, value => rom (Device.write device offset value)
  | latch device, offset, value => latch (Device.write device offset value)
  | writeCounter device, offset, value => writeCounter (Device.write device offset value)

def size : Peripheral → UInt32
  | ram device => Device.size device
  | rom device => Device.size device
  | latch device => Device.size device
  | writeCounter device => Device.size device

def isWritable : Peripheral → Bool
  | ram device => Device.isWritable device
  | rom device => Device.isWritable device
  | latch device => Device.isWritable device
  | writeCounter device => Device.isWritable device

def reset : Peripheral → Peripheral
  | ram device => ram (Device.reset device)
  | rom device => rom (Device.reset device)
  | latch device => latch (Device.reset device)
  | writeCounter device => writeCounter (Device.reset device)

def interruptLine : Peripheral → Bool
  | ram device => Device.interruptLine device
  | rom device => Device.interruptLine device
  | latch device => Device.interruptLine device
  | writeCounter device => Device.interruptLine device

instance : Device Peripheral where
  read := read
  write := write
  size := size
  isWritable := isWritable
  reset := reset
  interruptLine := interruptLine

end Peripheral

end Nmos6502
