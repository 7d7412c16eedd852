import Nmos6502.Proofs.BinaryArithmetic

/-!
The four instructions that move a byte by one place. Each moves a bit in at one end and leaves the
bit that it moves out at the other end in C, so that one of them can take over where another one
has stopped.
-/

namespace Nmos6502

inductive Shift
  | asl
  | lsr
  | rol
  | ror
  deriving DecidableEq, Repr

namespace Shift

def mnemonic : Shift → Mnemonic
  | asl => .asl
  | lsr => .lsr
  | rol => .rol
  | ror => .ror

def transform : Shift → Status → UInt8 → UInt8 × Status
  | asl => Action.shiftLeft
  | lsr => Action.shiftRight
  | rol => Action.rotateLeft
  | ror => Action.rotateRight

def entering (shift : Shift) (status : Status) : Bool :=
  match shift with
  | asl | lsr => false
  | rol | ror => status.carry

theorem entering_congr (shift : Shift) {status other : Status}
    (same : status.carry = other.carry) : shift.entering status = shift.entering other := by
  cases shift with
  | asl | lsr => rfl
  | rol | ror => exact same

theorem action_eq (shift : Shift) : shift.mnemonic.action = .modify shift.transform := by
  cases shift <;> rfl

theorem isShift (shift : Shift) : shift.mnemonic.isShift = true := by
  cases shift <;> rfl

theorem isModify (shift : Shift) : shift.mnemonic.isModify = true := by
  cases shift <;> rfl

theorem describes (shift : Shift) (status : Status) (value : UInt8) :
    (shift.transform status value).2.Describes (shift.transform status value).1 := by
  cases shift <;> exact Status.describes_shifted status _ _

theorem interruptDisable_kept (shift : Shift) (status : Status) (value : UInt8) :
    (shift.transform status value).2.interruptDisable = status.interruptDisable := by
  cases shift <;> rfl

theorem toNat_shiftLeft_or (value : UInt8) (low : Bool) :
    (value <<< 1 ||| (if low then 0x01 else 0)).toNat = 2 * value.toNat % 256 + low.toNat := by
  have doubled : value.toNat <<< 1 % 256 = (value.toNat % 128) <<< 1 := by
    simp only [Nat.shiftLeft_eq]
    omega
  have joined := Nat.shiftLeft_add_eq_or_of_lt (i := 1) (b := low.toNat) low.toNat_lt
    (value.toNat % 128)
  have bit : (if low then (0x01 : UInt8) else 0).toNat = low.toNat := by cases low <;> rfl
  rw [UInt8.toNat_or, UInt8.toNat_shiftLeft, bit]
  change value.toNat <<< 1 % 256 ||| low.toNat = _
  rw [doubled, ← joined, Nat.shiftLeft_eq]
  omega

theorem toNat_shiftRight_or (value : UInt8) (high : Bool) :
    (value >>> 1 ||| (if high then 0x80 else 0)).toNat = value.toNat / 2 + 128 * high.toNat := by
  have bound := value.toNat_lt
  have joined := Nat.two_pow_add_eq_or_of_lt (i := 7) (b := value.toNat / 2) (by omega) high.toNat
  have bit : (if high then (0x80 : UInt8) else 0).toNat = 2 ^ 7 * high.toNat := by
    cases high <;> rfl
  rw [UInt8.toNat_or, UInt8.toNat_shiftRight, bit, Nat.or_comm]
  change 2 ^ 7 * high.toNat ||| value.toNat >>> 1 = _
  rw [Nat.shiftRight_eq_div_pow, Nat.pow_one, ← joined]
  omega

theorem toNat_highBit (value : UInt8) :
    (value &&& 0x80 != 0).toNat = value.toNat / 128 := by
  have bound := value.toNat_lt
  have set := Status.highBit_iff value
  cases high : value &&& 0x80 != 0 with
  | false =>
      rw [high] at set
      simp only [Bool.false_eq_true, false_iff] at set
      simp only [Bool.toNat_false]
      omega
  | true =>
      have above := set.mp high
      simp only [Bool.toNat_true]
      omega

theorem toNat_lowBit (value : UInt8) : (value &&& 0x01 != 0).toNat = value.toNat % 2 := by
  have masked : (value &&& 0x01).toNat = value.toNat % 2 := by
    rw [UInt8.toNat_and]
    exact Nat.and_one_is_mod _
  by_cases even : value.toNat % 2 = 0
  · have zero : value &&& 0x01 = 0 := UInt8.toNat_inj.mp (masked.trans even)
    simp [zero, even]
  · have one : value &&& 0x01 = 1 := UInt8.toNat_inj.mp (masked.trans (by simp; omega))
    simp [one]
    omega

/-- Moved to the left, a byte counts twice, and the bit that leaves it is worth 256. -/
theorem left_balance {shift : Shift} (left : shift = .asl ∨ shift = .rol) (status : Status)
    (value : UInt8) :
    (shift.transform status value).1.toNat +
        256 * (shift.transform status value).2.carry.toNat =
      2 * value.toNat + (shift.entering status).toNat := by
  have moved := toNat_shiftLeft_or value (shift.entering status)
  have out := toNat_highBit value
  have bound := value.toNat_lt
  rcases left with rfl | rfl
  · simp only [entering, Bool.false_eq_true, if_false, UInt8.or_zero] at moved ⊢
    change (value <<< 1).toNat + 256 * (value &&& 0x80 != 0).toNat = _
    omega
  · change (value <<< 1 ||| (if entering .rol status then 0x01 else 0)).toNat +
      256 * (value &&& 0x80 != 0).toNat = _
    omega

theorem right_balance {shift : Shift} (right : shift = .lsr ∨ shift = .ror) (status : Status)
    (value : UInt8) :
    value.toNat + 256 * (shift.entering status).toNat =
      2 * (shift.transform status value).1.toNat +
        (shift.transform status value).2.carry.toNat := by
  have moved := toNat_shiftRight_or value (shift.entering status)
  have out := toNat_lowBit value
  rcases right with rfl | rfl
  · simp only [entering, Bool.false_eq_true, if_false, UInt8.or_zero] at moved ⊢
    change _ = 2 * (value >>> 1).toNat + (value &&& 0x01 != 0).toNat
    omega
  · change _ = 2 * (value >>> 1 ||| (if entering .ror status then 0x80 else 0)).toNat +
      (value &&& 0x01 != 0).toNat
    omega

end Shift

namespace Cpu

section

variable {β : Type} [Bus β]

def valueAt (cpu : Cpu β) (place : Place) : UInt8 :=
  place.value cpu.registers cpu.memory

def valuesAt (cpu : Cpu β) (places : List Place) : List UInt8 :=
  places.map cpu.valueAt

def numberAt (cpu : Cpu β) (places : List Place) : Nat :=
  Radix.binary.number (cpu.valuesAt places)

end

/-- What a shift does: to the byte at its place and to the flags, and nothing else that a later
shift could depend on. -/
structure Shifted (shift : Shift) (place : Place) (before after : Cpu FlatMemory) : Prop where
  value : after.valueAt place =
    (shift.transform before.registers.status (before.valueAt place)).1
  elsewhere : ∀ other, other ≠ place → after.valueAt other = before.valueAt other
  status : after.registers.status =
    (shift.transform before.registers.status (before.valueAt place)).2
  x : after.registers.x = before.registers.x
  programCounter : after.registers.programCounter = before.advancedRegisters.programCounter

variable {cpu : Cpu FlatMemory} {shift : Shift}

theorem AboutTo.succeeds {mnemonic : Mnemonic} (aboutTo : cpu.AboutTo mnemonic)
    (documented : mnemonic ≠ .illegal) : ∃ cycles, cpu.step.1 = .ok cycles := by
  have executes := aboutTo.executes documented
  have legal := executes.legal
  refine ⟨cpu.nextInstruction.cycles, ?_⟩
  rw [step, if_neg (by simp [executes.running]), executes.free]
  simp only [legal, Bool.false_eq_true, if_false]
  rfl

theorem AboutTo.place_of_shift (aboutTo : cpu.AboutTo shift.mnemonic) :
    cpu.nextOperand.place = .accumulator ∨ ∃ address, cpu.nextOperand.place = .cell address := by
  have modifies : (Opcode.ofByte cpu.opcodeByte).mnemonic.isModify = true := by
    rw [aboutTo.2.2]
    exact shift.isModify
  by_cases accumulator : (Opcode.ofByte cpu.opcodeByte).mode = .accumulator
  · exact .inl ((Operand.resolve_accumulator_iff _ _ _ _).mpr accumulator)
  · exact .inr (Opcode.exists_cell_of_isModify modifies accumulator _ _ _)

theorem AboutTo.shifted (aboutTo : cpu.AboutTo shift.mnemonic) :
    Shifted shift cpu.nextOperand.place cpu cpu.step.2 := by
  have executes := aboutTo.executes (by cases shift <;> decide)
  have registers := executes.registers
  have accesses := executes.stepAccesses_eq
  have memory := cpu.flat_step_memory
  rw [executes.mnemonic_eq] at accesses
  rw [aboutTo.2.2, shift.action_eq] at registers accesses
  rw [accesses] at memory
  -- In the accumulator nothing is written, and in memory one byte.
  obtain place | ⟨address, place⟩ := aboutTo.place_of_shift
  · rw [place] at registers memory ⊢
    constructor
    case elsewhere =>
      intro other different
      rw [valueAt, registers, memory]
      cases other with
      | accumulator => exact absurd rfl different
      | nowhere | constant _ | cell _ => rfl
    case value | status | x | programCounter =>
      simp only [valueAt, registers]
      rfl
  · rw [place] at registers memory ⊢
    change cpu.step.2.memory = cpu.memory.write address _ at memory
    constructor
    case value =>
      rw [valueAt, memory]
      exact (FlatMemory.read_write _ _ _ _).trans (if_pos rfl)
    case elsewhere =>
      intro other different
      rw [valueAt, registers, memory]
      cases other with
      | cell another =>
          refine (FlatMemory.read_write _ _ _ _).trans (if_neg ?_)
          rintro rfl
          exact different rfl
      | nowhere | constant _ | accumulator => rfl
    case status | x | programCounter =>
      rw [registers]
      rfl

end Cpu

end Nmos6502
