import Nmos6502.Proofs.Columns
import Nmos6502.Proofs.InterruptReturn

/-!
Additions and subtractions of numbers of several bytes, by one ADC or SBC for each byte, the lowest
first. What the program does in between is its own affair, as long as it passes the carry on.
Whatever the bytes count for, a chain is as exact as each of its steps.
-/

namespace Nmos6502

namespace Radix

structure Adds (radix : Radix) (combine : UInt8 → UInt8 → Bool → Sum) : Prop where
  valid : ∀ augend addend carry, radix.Valid augend → radix.Valid addend →
    radix.Valid (combine augend addend carry).result
  balance : ∀ augend addend carry, radix.Valid augend → radix.Valid addend →
    radix.digit (combine augend addend carry).result +
        radix.base * (combine augend addend carry).carry.toNat =
      radix.digit augend + radix.digit addend + carry.toNat

/-- An operation on bytes subtracts them as digits, and a carry that is missing is a borrow of one
from the next column. -/
structure Subtracts (radix : Radix) (combine : UInt8 → UInt8 → Bool → Sum) : Prop where
  valid : ∀ minuend subtrahend carry, radix.Valid minuend → radix.Valid subtrahend →
    radix.Valid (combine minuend subtrahend carry).result
  balance : ∀ minuend subtrahend carry, radix.Valid minuend → radix.Valid subtrahend →
    radix.digit minuend + radix.base * (!(combine minuend subtrahend carry).carry).toNat =
      radix.digit (combine minuend subtrahend carry).result + radix.digit subtrahend +
        (!carry).toNat

end Radix

namespace Cpu

variable {β : Type} [Bus β]

def operandValue (cpu : Cpu β) : UInt8 :=
  cpu.nextOperand.place.value cpu.registers cpu.memory

def resultByte (cpu : Cpu β) : UInt8 :=
  cpu.step.2.registers.a

def accumulators (cpus : List (Cpu β)) : List UInt8 :=
  cpus.map fun cpu => cpu.registers.a

def operandValues (cpus : List (Cpu β)) : List UInt8 :=
  cpus.map operandValue

def resultBytes (cpus : List (Cpu β)) : List UInt8 :=
  cpus.map resultByte

omit [Bus β] in
@[simp] theorem length_accumulators (cpus : List (Cpu β)) :
    (accumulators cpus).length = cpus.length :=
  List.length_map _

@[simp] theorem length_resultBytes (cpus : List (Cpu β)) :
    (resultBytes cpus).length = cpus.length :=
  List.length_map _

/-- Processors that are about to add or subtract one byte each. The first one finds the carry of a
status, each of the others the carry of the one before, and the last one leaves a status. -/
inductive Chain (mnemonic : Mnemonic) (decimal : Bool) : Status → List (Cpu β) → Status → Prop
  | nil (status) : Chain mnemonic decimal status [] status
  | cons {status cpu rest final} : cpu.AboutTo mnemonic →
      cpu.registers.status.decimal = decimal → cpu.registers.status.carry = status.carry →
      Chain mnemonic decimal cpu.step.2.registers.status rest final →
      Chain mnemonic decimal status (cpu :: rest) final

def Digits (radix : Radix) (cpus : List (Cpu β)) : Prop :=
  ∀ cpu ∈ cpus, radix.Valid cpu.registers.a ∧ radix.Valid cpu.operandValue

variable {radix : Radix} {mnemonic : Mnemonic} {decimal : Bool} {status final : Status}
  {cpu : Cpu β} {cpus : List (Cpu β)}

/-! One step. -/

theorem AboutTo.registers_read {use : Registers → UInt8 → Registers}
    (aboutTo : cpu.AboutTo mnemonic) (documented : mnemonic ≠ .illegal)
    (reads : mnemonic.action = .read use) :
    cpu.step.2.registers = use cpu.advancedRegisters cpu.operandValue := by
  have executes := aboutTo.executes documented
  have operand := Place.value_elsewhere cpu.registers cpu.nextOperand.place cpu.memory
    cpu.advancedRegisters.programCounter
  rw [executes.registers, aboutTo.2.2, reads, operandValue, ← operand]
  rfl

theorem AboutTo.registers_adc (aboutTo : cpu.AboutTo .adc) :
    cpu.step.2.registers = cpu.advancedRegisters.accept
      (Sum.add cpu.registers.status.decimal cpu.registers.a cpu.operandValue
        cpu.registers.status.carry) :=
  aboutTo.registers_read (by decide) rfl

theorem AboutTo.registers_sbc (aboutTo : cpu.AboutTo .sbc) :
    cpu.step.2.registers = cpu.advancedRegisters.accept
      (Sum.subtract cpu.registers.status.decimal cpu.registers.a cpu.operandValue
        cpu.registers.status.carry) :=
  aboutTo.registers_read (by decide) rfl

theorem AboutTo.adds (adds : radix.Adds (Sum.add cpu.registers.status.decimal))
    (aboutTo : cpu.AboutTo .adc) (augend : radix.Valid cpu.registers.a)
    (addend : radix.Valid cpu.operandValue) :
    radix.Valid cpu.resultByte ∧
      radix.digit cpu.resultByte + radix.base * cpu.step.2.registers.status.carry.toNat =
        radix.digit cpu.registers.a + radix.digit cpu.operandValue +
          cpu.registers.status.carry.toNat := by
  rw [resultByte, aboutTo.registers_adc]
  exact ⟨adds.valid _ _ _ augend addend, adds.balance _ _ _ augend addend⟩

theorem AboutTo.subtracts (subtracts : radix.Subtracts (Sum.subtract cpu.registers.status.decimal))
    (aboutTo : cpu.AboutTo .sbc) (minuend : radix.Valid cpu.registers.a)
    (subtrahend : radix.Valid cpu.operandValue) :
    radix.Valid cpu.resultByte ∧
      radix.digit cpu.registers.a + radix.base * (!cpu.step.2.registers.status.carry).toNat =
        radix.digit cpu.resultByte + radix.digit cpu.operandValue +
          (!cpu.registers.status.carry).toNat := by
  rw [resultByte, aboutTo.registers_sbc]
  exact ⟨subtracts.valid _ _ _ minuend subtrahend, subtracts.balance _ _ _ minuend subtrahend⟩

/-! A whole chain. -/

theorem Chain.forall_mem (chain : Chain mnemonic decimal status cpus final) :
    ∀ cpu ∈ cpus, cpu.AboutTo mnemonic ∧ cpu.registers.status.decimal = decimal := by
  induction chain with
  | nil => exact List.forall_mem_nil _
  | cons aboutTo mode _ _ ih => exact List.forall_mem_cons.mpr ⟨⟨aboutTo, mode⟩, ih⟩

/-- What the carry is worth is up to the calculation: a subtraction counts it when it is clear. -/
theorem Chain.ripples {base : Nat} {column : Cpu β → Nat × Nat} (worth : Bool → Nat)
    (chain : Chain mnemonic decimal status cpus final)
    (balanced : ∀ cpu ∈ cpus,
      (column cpu).2 + base * worth cpu.step.2.registers.status.carry =
        (column cpu).1 + worth cpu.registers.status.carry) :
    Ripples base (worth status.carry) (cpus.map column) (worth final.carry) := by
  induction chain with
  | nil => exact .nil _
  | cons _ _ carry _ ih =>
      rw [List.forall_mem_cons] at balanced
      rw [← carry]
      exact .cons balanced.1 (ih balanced.2)

theorem Chain.valid_sums (adds : radix.Adds (Sum.add decimal))
    (chain : Chain .adc decimal status cpus final) (digits : Digits radix cpus) :
    ∀ byte ∈ resultBytes cpus, radix.Valid byte := by
  refine List.forall_mem_map.mpr ?_
  intro cpu member
  obtain ⟨aboutTo, rfl⟩ := chain.forall_mem cpu member
  exact (aboutTo.adds adds (digits cpu member).1 (digits cpu member).2).1

theorem Chain.valid_differences (subtracts : radix.Subtracts (Sum.subtract decimal))
    (chain : Chain .sbc decimal status cpus final) (digits : Digits radix cpus) :
    ∀ byte ∈ resultBytes cpus, radix.Valid byte := by
  refine List.forall_mem_map.mpr ?_
  intro cpu member
  obtain ⟨aboutTo, rfl⟩ := chain.forall_mem cpu member
  exact (aboutTo.subtracts subtracts (digits cpu member).1 (digits cpu member).2).1

theorem Chain.sum_balance (adds : radix.Adds (Sum.add decimal))
    (chain : Chain .adc decimal status cpus final) (digits : Digits radix cpus) :
    radix.number (resultBytes cpus) + radix.base ^ cpus.length * final.carry.toNat =
      radix.number (accumulators cpus) +
        (radix.number (operandValues cpus) + status.carry.toNat) := by
  have ripples : Ripples radix.base status.carry.toNat
      (cpus.map fun cpu => (radix.digit cpu.registers.a + radix.digit cpu.operandValue,
        radix.digit cpu.resultByte)) final.carry.toNat := by
    apply chain.ripples Bool.toNat
    intro cpu member
    obtain ⟨aboutTo, rfl⟩ := chain.forall_mem cpu member
    exact (aboutTo.adds adds (digits cpu member).1 (digits cpu member).2).2
  have total := ripples.total
  rw [List.map_map, List.map_map, List.length_map] at total
  rw [← Nat.add_assoc, accumulators, operandValues, ← Radix.number_add, resultBytes,
    Radix.number, List.map_map]
  exact total

theorem Chain.difference_balance (subtracts : radix.Subtracts (Sum.subtract decimal))
    (chain : Chain .sbc decimal status cpus final) (digits : Digits radix cpus) :
    radix.number (accumulators cpus) + radix.base ^ cpus.length * (!final.carry).toNat =
      radix.number (resultBytes cpus) +
        (radix.number (operandValues cpus) + (!status.carry).toNat) := by
  have ripples : Ripples radix.base (!status.carry).toNat
      (cpus.map fun cpu => (radix.digit cpu.resultByte + radix.digit cpu.operandValue,
        radix.digit cpu.registers.a)) (!final.carry).toNat := by
    apply chain.ripples fun carry => (!carry).toNat
    intro cpu member
    obtain ⟨aboutTo, rfl⟩ := chain.forall_mem cpu member
    exact (aboutTo.subtracts subtracts (digits cpu member).1 (digits cpu member).2).2
  have total := ripples.total
  rw [List.map_map, List.map_map, List.length_map] at total
  rw [← Nat.add_assoc, resultBytes, operandValues, ← Radix.number_add, accumulators,
    Radix.number, List.map_map]
  exact total

structure Sums (radix : Radix) (cpus : List (Cpu β)) (carry : Bool) (final : Status) : Prop where
  valid : ∀ byte ∈ resultBytes cpus, radix.Valid byte
  result : radix.number (resultBytes cpus) =
    (radix.number (accumulators cpus) + (radix.number (operandValues cpus) + carry.toNat)) %
      radix.base ^ cpus.length
  carry : final.carry = true ↔ radix.base ^ cpus.length ≤
    radix.number (accumulators cpus) + (radix.number (operandValues cpus) + carry.toNat)

structure Differences (radix : Radix) (cpus : List (Cpu β)) (carry : Bool) (final : Status) :
    Prop where
  valid : ∀ byte ∈ resultBytes cpus, radix.Valid byte
  result : (radix.number (resultBytes cpus) : Int) =
    ((radix.number (accumulators cpus) : Int) -
      ((radix.number (operandValues cpus) + (!carry).toNat : Nat) : Int)) %
        ((radix.base ^ cpus.length : Nat) : Int)
  carry : final.carry = true ↔ 0 ≤ (radix.number (accumulators cpus) : Int) -
    ((radix.number (operandValues cpus) + (!carry).toNat : Nat) : Int)

theorem Chain.sums (adds : radix.Adds (Sum.add decimal))
    (chain : Chain .adc decimal status cpus final) (digits : Digits radix cpus) :
    Sums radix cpus status.carry final := by
  have valid := chain.valid_sums adds digits
  have bound := Radix.number_lt valid
  rw [length_resultBytes] at bound
  obtain ⟨result, carry⟩ := eq_mod_of_carry bound (chain.sum_balance adds digits)
  exact ⟨valid, result, carry⟩

theorem Chain.differences (subtracts : radix.Subtracts (Sum.subtract decimal))
    (chain : Chain .sbc decimal status cpus final) (digits : Digits radix cpus) :
    Differences radix cpus status.carry final := by
  have valid := chain.valid_differences subtracts digits
  have bound := Radix.number_lt valid
  rw [length_resultBytes] at bound
  obtain ⟨result, borrow⟩ := eq_emod_of_borrow bound (chain.difference_balance subtracts digits)
  rw [Bool.not_eq_false'] at borrow
  exact ⟨valid, result, borrow⟩

/-- A subtraction from the sum, with the other carry to start with, restores the augend. -/
theorem Chain.restores (adds : radix.Adds (Sum.add decimal))
    (subtracts : radix.Subtracts (Sum.subtract decimal)) {start last : Status}
    {undoing : List (Cpu β)} (chain : Chain .adc decimal status cpus final)
    (undo : Chain .sbc decimal start undoing last) (digits : Digits radix cpus)
    (results : accumulators undoing = resultBytes cpus)
    (operands : operandValues undoing = operandValues cpus)
    (carry : start.carry = !status.carry) :
    resultBytes undoing = accumulators cpus ∧ last.carry = !final.carry := by
  have length : undoing.length = cpus.length := by
    have lengths := congrArg List.length results
    rwa [length_accumulators, length_resultBytes] at lengths
  have augends : ∀ byte ∈ accumulators cpus, radix.Valid byte :=
    List.forall_mem_map.mpr fun cpu member => (digits cpu member).1
  -- What is taken away from are sums, and sums of digits are digits.
  have undoneDigits : Digits radix undoing := by
    intro cpu member
    have minuend : cpu.registers.a ∈ accumulators undoing := List.mem_map_of_mem member
    have subtrahend : cpu.operandValue ∈ operandValues undoing := List.mem_map_of_mem member
    rw [results] at minuend
    rw [operands] at subtrahend
    obtain ⟨source, among, same⟩ := List.mem_map.mp subtrahend
    exact ⟨chain.valid_sums adds digits _ minuend, same ▸ (digits source among).2⟩
  have restored := undo.valid_differences subtracts undoneDigits
  have sum := chain.sum_balance adds digits
  have difference := undo.difference_balance subtracts undoneDigits
  rw [results, operands, carry, length, Bool.not_not] at difference
  have augendBound := Radix.number_lt augends
  have restoredBound := Radix.number_lt restored
  rw [length_accumulators] at augendBound
  rw [length_resultBytes, length] at restoredBound
  -- Both balances over the same columns leave the augend for what was restored.
  obtain ⟨same, borrow⟩ := eq_of_balances augendBound restoredBound sum difference
  refine ⟨Radix.number_injective restored augends ?_ same, ?_⟩
  · rw [length_resultBytes, length_accumulators, length]
  · rw [← borrow, Bool.not_not]

/-! A chain of any bytes. -/

def immediately (opcode value : UInt8) (accumulator : UInt8) (status : Status) : Cpu FlatMemory :=
  { memory := (FlatMemory.zeroed.write 0 opcode).write 1 value
    registers := { a := accumulator, status } }

theorem immediately_opcodeByte (opcode value accumulator : UInt8) (status : Status) :
    (immediately opcode value accumulator status).opcodeByte = opcode := by
  simp [opcodeByte, immediately, Bus.read]

theorem immediately_operandValue (opcode value accumulator : UInt8) (status : Status)
    (mode : (Opcode.ofByte opcode).mode = .immediate) :
    (immediately opcode value accumulator status).operandValue = value := by
  rw [operandValue, nextOperand, immediately_opcodeByte, mode]
  simp [Operand.resolve, immediately, Bus.read, Place.value]

/-- Whatever the bytes and the carry are, there is a chain of them. -/
theorem exists_chain {opcode : UInt8} (mode : (Opcode.ofByte opcode).mode = .immediate)
    (decimal : Bool) (bytes : List (UInt8 × UInt8)) (status : Status) :
    ∃ (cpus : List (Cpu FlatMemory)) (final : Status),
      Chain (Opcode.ofByte opcode).mnemonic decimal status cpus final ∧
        accumulators cpus = bytes.map Prod.fst ∧ operandValues cpus = bytes.map Prod.snd := by
  induction bytes generalizing status with
  | nil => exact ⟨[], status, .nil status, rfl, rfl⟩
  | cons pair rest ih =>
      let cpu := immediately opcode pair.2 pair.1 { Status.clear with decimal, carry := status.carry }
      obtain ⟨cpus, final, chain, left, right⟩ := ih cpu.step.2.registers.status
      refine ⟨cpu :: cpus, final, .cons ⟨rfl, rfl, ?_⟩ rfl rfl chain, ?_, ?_⟩
      · rw [immediately_opcodeByte]
      · rw [accumulators, List.map_cons]
        exact congrArg (pair.1 :: ·) left
      · rw [operandValues, List.map_cons, immediately_operandValue opcode _ _ _ mode]
        exact congrArg (pair.2 :: ·) right

def wordSums (decimal : Bool) (augend addend : List UInt8) : Cpu FlatMemory :=
  { memory := FlatMemory.zeroed.loadAll
      [(0x10, augend), (0x20, addend),
        (0x8000, [0x18, 0xA5, 0x10, 0x65, 0x20, 0x85, 0x30, 0xA5, 0x11, 0x65, 0x21, 0x85, 0x31,
          0x38, 0xA5, 0x30, 0xE5, 0x20, 0xA5, 0x31, 0xE5, 0x21])]
    registers := { programCounter := 0x8000, status := { Status.clear with decimal } } }

def adding (start : Cpu FlatMemory) : List (Cpu FlatMemory) :=
  [start.after 2, start.after 5]

def subtracting (start : Cpu FlatMemory) : List (Cpu FlatMemory) :=
  [start.after 9, start.after 11]

end Cpu

end Nmos6502
