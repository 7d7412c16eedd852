import Nmos6502.Bus
import Nmos6502.Memory.Cells

/-!
Plain memory: a byte that can be read and written at every address, or only in the lower part. A
write to the upper part is then dropped, and the first one is kept as a fault.
-/

namespace Nmos6502

structure FlatMemory where
  cells : Cells 16

namespace FlatMemory

def zeroed : FlatMemory := ⟨Cells.replicate 0 16⟩

instance : Inhabited FlatMemory := ⟨zeroed⟩

def read (memory : FlatMemory) (address : UInt16) : UInt8 :=
  memory.cells.get address.toNat

def write (memory : FlatMemory) (address : UInt16) (value : UInt8) : FlatMemory :=
  ⟨memory.cells.set address.toNat value⟩

instance : Bus FlatMemory where
  read := read
  write := write
  reset _ := zeroed

/-- Places bytes at successive addresses; the first address follows the last. -/
def load (memory : FlatMemory) (address : UInt16) : List UInt8 → FlatMemory
  | [] => memory
  | byte :: rest => (memory.write address byte).load (address + 1) rest

def loadAll (memory : FlatMemory) (pieces : List (UInt16 × List UInt8)) : FlatMemory :=
  pieces.foldl (fun loaded piece => loaded.load piece.1 piece.2) memory

def setResetVector (memory : FlatMemory) (target : UInt16) : FlatMemory :=
  memory.load resetVector [lowByte target, highByte target]

@[simp] theorem read_zeroed (address : UInt16) : zeroed.read address = 0 :=
  Cells.get_replicate 0 16 _

@[simp] theorem read_write (memory : FlatMemory) (address query : UInt16) (value : UInt8) :
    (memory.write address value).read query =
      if address = query then value else memory.read query := by
  simp only [read, write, ← UInt16.toNat_inj]
  exact Cells.get_set_of_lt _ _ (Cells.toNat_lt_count address) (Cells.toNat_lt_count query)

end FlatMemory

structure GuardedMemory where
  memory : FlatMemory
  limit : Nat
  fault : Option BusFault := none

namespace GuardedMemory

def write (guarded : GuardedMemory) (address : UInt16) (value : UInt8) : GuardedMemory :=
  if address.toNat < guarded.limit then
    { guarded with memory := guarded.memory.write address value }
  else
    { guarded with fault := guarded.fault.or (some (.readOnlyWrite address value)) }

instance : Bus GuardedMemory where
  read guarded address := guarded.memory.read address
  write := write
  fault := fault
  clearFault guarded := { guarded with fault := none }

end GuardedMemory

end Nmos6502
