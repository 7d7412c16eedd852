import Nmos6502.Proofs.InstructionFlow

/-!
What an instruction costs: the cycles of its opcode, one more where the index of a read carries
into the next page, and up to two more for a branch that is taken.
-/

namespace Nmos6502

theorem toNat_pageOf (address : UInt16) :
    (pageOf address).toNat = address.toNat / 256 * 256 := by
  have bound := address.toNat_lt
  rw [pageOf_eq_highByte]
  simp only [highByte, UInt16.toNat_shiftLeft, UInt8.toNat_toUInt16, UInt16.toNat_toUInt8,
    UInt16.toNat_shiftRight, UInt16.toNat_ofNat, Nat.reducePow, Nat.reduceMod,
    Nat.shiftRight_eq_div_pow, Nat.shiftLeft_eq]
  omega

theorem pageOf_eq_iff (left right : UInt16) :
    pageOf left = pageOf right ↔ left.toNat / 256 = right.toNat / 256 := by
  rw [← UInt16.toNat_inj, toNat_pageOf, toNat_pageOf]
  omega

namespace Operand

theorem indexed_pageCrossed (base : UInt16) (index : UInt8) :
    (indexed base index).pageCrossed =
      decide (0xFF < (lowByte base).toNat + index.toNat) := by
  have baseBound := base.toNat_lt
  have indexBound := index.toNat_lt
  rw [Bool.eq_iff_iff, indexed, bne_iff_ne, decide_eq_true_eq, ne_eq, pageOf_eq_iff, lowByte,
    UInt16.toNat_add, UInt8.toNat_toUInt16, UInt16.toNat_toUInt8]
  omega

variable {β : Type} [Bus β]

/-- The full address that a mode adds an index to, and the index. -/
def indexing? (mode : AddressingMode) (registers : Registers) (memory : β) (address : UInt16) :
    Option (UInt16 × UInt8) :=
  match mode with
  | .absoluteX => some (readWord memory (address + 1), registers.x)
  | .absoluteY => some (readWord memory (address + 1), registers.y)
  | .indirectY =>
      some (readZeroPagePointer memory (Bus.read memory (address + 1)), registers.y)
  | _ => none

def carries : Option (UInt16 × UInt8) → Bool
  | some (base, index) => 0xFF < (lowByte base).toNat + index.toNat
  | none => false

theorem resolve_pageCrossed {mode : AddressingMode} (crosses : mode.canCrossPage = true)
    (registers : Registers) (memory : β) (address : UInt16) :
    (resolve mode registers memory address).pageCrossed =
      carries (indexing? mode registers memory address) := by
  cases mode with
  | absoluteX | absoluteY | indirectY => exact indexed_pageCrossed _ _
  | _ => simp [AddressingMode.canCrossPage] at crosses

end Operand

theorem Opcode.canCrossPage_of_hasPagePenalty {opcode : Opcode}
    (penalty : opcode.hasPagePenalty = true) : opcode.mode.canCrossPage = true := by
  simp only [hasPagePenalty] at penalty
  split at penalty
  · exact penalty
  · simp at penalty

theorem Mnemonic.branchCycles_eq (mnemonic : Mnemonic) (status : Status) (crossed : Bool) :
    mnemonic.action.branchCycles status crossed =
      match mnemonic.branchTest with
      | some (flag, wanted) => if status.get flag = wanted then 1 + crossed.toNat else 0
      | none => 0 := by
  cases mnemonic with
  | bcc | bcs | bne | beq | bpl | bmi | bvc | bvs =>
      simp only [action, Action.branchCycles, branchTest, Status.get, Bool.not_eq_true']
      congr
  | _ => rfl

namespace Cpu

variable {β : Type} [Bus β]

def indexCycles (cpu : Cpu β) : Nat :=
  let opcode := Opcode.ofByte cpu.opcodeByte
  let indexing := Operand.indexing? opcode.mode cpu.registers cpu.memory
    cpu.registers.programCounter
  if opcode.hasPagePenalty = true ∧ Operand.carries indexing = true then 1 else 0

/-- The cycles that the next instruction spends on a branch, told from where the step leads. -/
def takenCycles (cpu : Cpu β) : Nat :=
  match (Opcode.ofByte cpu.opcodeByte).mnemonic.branchTest with
  | some (flag, wanted) =>
      if cpu.registers.status.get flag = wanted then
        if pageOf cpu.step.2.registers.programCounter = pageOf (cpu.registers.programCounter + 2)
        then 1 else 2
      else 0
  | none => 0

theorem penalty_eq_indexCycles (cpu : Cpu β) :
    ((Opcode.ofByte cpu.opcodeByte).hasPagePenalty && cpu.nextOperand.pageCrossed).toNat =
      cpu.indexCycles := by
  simp only [indexCycles]
  rcases penalty : (Opcode.ofByte cpu.opcodeByte).hasPagePenalty with _ | _
  · simp
  · have crosses := Opcode.canCrossPage_of_hasPagePenalty penalty
    rw [Bool.true_and, nextOperand, Operand.resolve_pageCrossed crosses]
    rcases Operand.carries _ with _ | _ <;> simp

theorem Executes.branchCycles_eq {cpu : Cpu β} {executed : ExecutedInstruction}
    (executes : cpu.Executes executed) :
    (Opcode.ofByte cpu.opcodeByte).mnemonic.action.branchCycles cpu.registers.status
        cpu.nextOperand.pageCrossed = cpu.takenCycles := by
  rw [Mnemonic.branchCycles_eq, takenCycles]
  rcases tests : (Opcode.ofByte cpu.opcodeByte).mnemonic.branchTest with _ | ⟨flag, wanted⟩
  · rfl
  · by_cases holds : cpu.registers.status.get flag = wanted
    · have mode := (Opcode.mode_relative_iff cpu.opcodeByte).mpr (by rw [tests]; rfl)
      obtain ⟨taken, _⟩ := Mnemonic.registersAfter_branch cpu.memory cpu.advancedRegisters
        cpu.nextOperand.place tests
      have led : cpu.step.2.registers.programCounter =
          Operand.branchTarget cpu.registers.programCounter
            (Bus.read cpu.memory (cpu.registers.programCounter + 1)) := by
        rw [executes.registers, taken holds, nextOperand, mode]
        rfl
      simp only [holds, if_true, led, nextOperand, mode, Operand.resolve]
      by_cases same : pageOf (Operand.branchTarget cpu.registers.programCounter
          (Bus.read cpu.memory (cpu.registers.programCounter + 1))) =
          pageOf (cpu.registers.programCounter + 2)
      · simp [same]
      · simp [same, bne_iff_ne.mpr (Ne.symm same)]
    · simp only [holds, if_false]

theorem instructionCycles_bounds (byte : UInt8) (status : Status) (crossed : Bool) :
    2 ≤ instructionCycles (Opcode.ofByte byte) status crossed ∧
      instructionCycles (Opcode.ofByte byte) status crossed ≤ 7 := by
  have most : (Opcode.ofByte byte).cycles +
      (if (Opcode.ofByte byte).mnemonic.branchTest.isSome then 2 else 0) +
      (Opcode.ofByte byte).hasPagePenalty.toNat ≤ 7 :=
    Opcode.forall_ofByte
      (P := fun opcode => opcode.cycles + (if opcode.mnemonic.branchTest.isSome then 2 else 0) +
        opcode.hasPagePenalty.toNat ≤ 7) (by decide +kernel) byte
  have branch : (Opcode.ofByte byte).mnemonic.action.branchCycles status crossed ≤
      if (Opcode.ofByte byte).mnemonic.branchTest.isSome then 2 else 0 := by
    rw [Mnemonic.branchCycles_eq]
    have one := crossed.toNat_le
    rcases (Opcode.ofByte byte).mnemonic.branchTest with _ | ⟨flag, wanted⟩
    · simp
    · simp only [Option.isSome_some, if_true]
      split <;> omega
  have penalty : ((Opcode.ofByte byte).hasPagePenalty && crossed).toNat ≤
      (Opcode.ofByte byte).hasPagePenalty.toNat := by
    cases (Opcode.ofByte byte).hasPagePenalty <;> cases crossed <;> decide
  have least := (Opcode.cycles_bounds byte).1
  simp only [instructionCycles]
  omega

structure Priced (cpu : Cpu β) (executed : ExecutedInstruction) : Prop where
  opcode : executed.opcode = cpu.opcodeByte
  cycles : executed.cycles =
    (Opcode.ofByte executed.opcode).cycles + cpu.takenCycles + cpu.indexCycles
  least : 2 ≤ executed.cycles
  most : executed.cycles ≤ 7

theorem Executes.priced {cpu : Cpu β} {executed : ExecutedInstruction}
    (executes : cpu.Executes executed) : cpu.Priced executed := by
  have bounds := instructionCycles_bounds cpu.opcodeByte cpu.registers.status
    cpu.nextOperand.pageCrossed
  rw [executes.instruction]
  refine ⟨rfl, ?_, bounds.1, bounds.2⟩
  rw [← executes.branchCycles_eq, ← cpu.penalty_eq_indexCycles]
  rfl

end Cpu

end Nmos6502
