import Nmos6502.Memory.Cells
import Nmos6502.Memory.Mapped

/-!
Devices that store bytes: RAM, zeroed by a reset, and ROM, whose contents no write and no reset
reaches.
-/

namespace Nmos6502

/-- As many bytes as the size says, of which sixteen bits of offset can reach the first 65536.
Offsets past the end find nothing and change nothing. -/
structure Bank where
  size : UInt32
  cells : Cells 16

namespace Bank

def filled (size : UInt32) (byte : UInt8) : Bank :=
  ⟨size, Cells.replicate byte 16⟩

def reach (bank : Bank) : Nat :=
  min bank.size.toNat 0x10000

def get? (bank : Bank) (offset : Nat) : Option UInt8 :=
  if offset < bank.reach then some (bank.cells.get offset) else none

def set (bank : Bank) (offset : Nat) (value : UInt8) : Bank :=
  if offset < bank.reach then { bank with cells := bank.cells.set offset value } else bank

def load (bank : Bank) (offset : Nat) : List UInt8 → Bank
  | [] => bank
  | byte :: rest => (bank.set offset byte).load (offset + 1) rest

def loadAll (bank : Bank) (pieces : List (UInt16 × List UInt8)) : Bank :=
  pieces.foldl (fun loaded piece => loaded.load piece.1.toNat piece.2) bank

@[simp] theorem size_set (bank : Bank) (offset : Nat) (value : UInt8) :
    (bank.set offset value).size = bank.size := by
  simp only [set]
  split <;> rfl

theorem get?_set (bank : Bank) (offset query : Nat) (value : UInt8) :
    (bank.set offset value).get? query =
      if offset = query ∧ query < bank.reach then some value else bank.get? query := by
  have reachSet : (bank.set offset value).reach = bank.reach := by simp [reach]
  by_cases inside : offset < bank.reach
  · by_cases asked : query < bank.reach
    · have offsetBound : offset < Cells.count 16 := by
        rw [Cells.count_sixteen]
        simp only [reach] at inside
        omega
      have queryBound : query < Cells.count 16 := by
        rw [Cells.count_sixteen]
        simp only [reach] at asked
        omega
      have cellsSet : (bank.set offset value).cells = bank.cells.set offset value := by
        simp [set, inside]
      simp only [get?, reachSet, asked, if_true, cellsSet, and_true,
        Cells.get_set_of_lt _ _ offsetBound queryBound]
      split <;> rfl
    · simp [get?, reachSet, asked]
  · have unchanged : bank.set offset value = bank := by simp [set, inside]
    rw [unchanged, if_neg]
    rintro ⟨rfl, bound⟩
    exact inside bound

end Bank

structure Ram where
  bank : Bank

namespace Ram

def zeroed (size : UInt32) : Ram := ⟨Bank.filled size 0⟩

def loadAll (ram : Ram) (pieces : List (UInt16 × List UInt8)) : Ram :=
  ⟨ram.bank.loadAll pieces⟩

instance : Device Ram where
  read ram offset := (ram.bank.get? offset.toNat).getD 0
  write ram offset value := ⟨ram.bank.set offset.toNat value⟩
  size ram := ram.bank.size
  reset ram := zeroed ram.bank.size

end Ram

structure Rom where
  bank : Bank

namespace Rom

def filled (size : UInt32) (byte : UInt8) : Rom := ⟨Bank.filled size byte⟩

def burnAll (rom : Rom) (pieces : List (UInt16 × List UInt8)) : Rom :=
  ⟨rom.bank.loadAll pieces⟩

instance : Device Rom where
  read rom offset := (rom.bank.get? offset.toNat).getD 0xFF
  write rom _ _ := rom
  size rom := rom.bank.size
  isWritable _ := false

end Rom

end Nmos6502
