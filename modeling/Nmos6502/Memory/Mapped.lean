import Nmos6502.Bus

/-!
Memory made of devices over disjoint ranges of addresses. A device is told offsets into its range
and does not know where the range lies. Addresses between the ranges
read as a fixed value and have nothing to peek at. A write that no writable device takes
is dropped; under strict writes the first dropped write is kept as a fault.
-/

namespace Nmos6502

/-- Reading has no effect on the device. Writes reach only a device that is writable. -/
class Device (δ : Type) where
  read : δ → UInt16 → UInt8
  write : δ → UInt16 → UInt8 → δ
  size : δ → UInt32
  isWritable : δ → Bool := fun _ => true
  reset : δ → δ := id
  interruptLine : δ → Bool := fun _ => false

structure Mapping (δ : Type) where
  base : UInt16
  limit : UInt32
  device : δ

namespace Mapping

variable {δ : Type}

def contains (mapping : Mapping δ) (address : UInt16) : Bool :=
  mapping.base ≤ address && address.toUInt32 < mapping.limit

def offset (mapping : Mapping δ) (address : UInt16) : UInt16 :=
  address - mapping.base

def overlaps (mapping : Mapping δ) (base : UInt16) (limit : UInt32) : Bool :=
  base.toUInt32 < mapping.limit && mapping.base.toUInt32 < limit

def size (mapping : Mapping δ) : UInt32 :=
  mapping.limit - mapping.base.toUInt32

end Mapping

inductive DeviceError
  | overlap (base : UInt16) (size : UInt32) (existingBase : UInt16) (existingSize : UInt32)
  | invalidSize (base : UInt16) (size : UInt32)
  deriving DecidableEq, Repr

def DeviceError.message : DeviceError → String
  | overlap base size existingBase existingSize =>
      "device at 0x" ++ Hex.word base ++ " (0x" ++ Hex.natural size.toNat ++
        " bytes) overlaps device at 0x" ++ Hex.word existingBase ++ " (0x" ++
        Hex.natural existingSize.toNat ++ " bytes)"
  | invalidSize base size =>
      "device at 0x" ++ Hex.word base ++ " has invalid size 0x" ++ Hex.natural size.toNat

/-- A device is turned away, or the call breaks off because the end of the device cannot be
told in 32 bits. -/
inductive AdmissionFailure
  | refused (error : DeviceError)
  | overflow
  deriving DecidableEq, Repr

def AdmissionFailure.message : AdmissionFailure → String
  | refused error => error.message
  | overflow => "attempt to add with overflow"

structure MappedMemory (δ : Type) where
  mappings : List (Mapping δ) := []
  unmappedValue : UInt8 := 0xFF
  strictWrites : Bool := false
  fault : Option BusFault := none

namespace MappedMemory

variable {δ : Type} [Device δ]

def find? (memory : MappedMemory δ) (address : UInt16) : Option (Mapping δ) :=
  memory.mappings.find? fun mapping => mapping.contains address

def peek (memory : MappedMemory δ) (address : UInt16) : Option UInt8 :=
  (memory.find? address).map fun mapping => Device.read mapping.device (mapping.offset address)

def read (memory : MappedMemory δ) (address : UInt16) : UInt8 :=
  (memory.peek address).getD memory.unmappedValue

def writeDevice (address : UInt16) (value : UInt8) : List (Mapping δ) → List (Mapping δ)
  | [] => []
  | mapping :: rest =>
      if mapping.contains address then
        { mapping with
          device := Device.write mapping.device (mapping.offset address) value } :: rest
      else mapping :: writeDevice address value rest

/-- Only strict writes keep a fault, and only while none is kept. -/
def raise (memory : MappedMemory δ) (fault : BusFault) : MappedMemory δ :=
  if memory.strictWrites then { memory with fault := memory.fault.or (some fault) } else memory

def write (memory : MappedMemory δ) (address : UInt16) (value : UInt8) : MappedMemory δ :=
  match memory.find? address with
  | some mapping =>
      if Device.isWritable mapping.device then
        { memory with mappings := writeDevice address value memory.mappings }
      else memory.raise (.readOnlyWrite address value)
  | none => memory.raise (.unmapped address)

def reset (memory : MappedMemory δ) : MappedMemory δ :=
  { memory with
    mappings := memory.mappings.map fun mapping =>
      { mapping with device := Device.reset mapping.device }
    fault := none }

def interruptLine (memory : MappedMemory δ) : Bool :=
  memory.mappings.any fun mapping => Device.interruptLine mapping.device

instance : Bus (MappedMemory δ) where
  read := read
  write := write
  reset := reset
  peek := peek
  fault := fault
  clearFault memory := { memory with fault := none }
  interruptLine := interruptLine

def limit? (base : UInt16) (size : UInt32) : Option UInt32 :=
  if base.toNat + size.toNat < UInt32.size then some (base.toUInt32 + size) else none

/-- A device must occupy at least one address, end within the address space, and share no
address with a device that is already there. -/
def addDevice (memory : MappedMemory δ) (base : UInt16) (device : δ) :
    Except AdmissionFailure (MappedMemory δ) :=
  let size := Device.size device
  match limit? base size with
  | none => .error .overflow
  | some limit =>
      if size = 0 ∨ 0x10000 < limit then .error (.refused (.invalidSize base size))
      else
        match memory.mappings.find? fun mapping => mapping.overlaps base limit with
        | some existing => .error (.refused (.overlap base size existing.base existing.size))
        | none => .ok { memory with mappings := memory.mappings ++ [⟨base, limit, device⟩] }

end MappedMemory

end Nmos6502
