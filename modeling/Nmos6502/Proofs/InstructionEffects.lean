import Nmos6502.Memory.Flat
import Nmos6502.Proofs.RegisterEffects

/-!
What each instruction may change: the flags, the registers and the stack pointer. Everything
else stays as it was before the step.
-/

namespace Nmos6502

namespace Mnemonic

def changedFlags : Mnemonic → List Flag
  | adc | sbc => [.negative, .overflow, .zero, .carry]
  | and | ora | eor | lda | ldx | ldy | inc | dec | inx | iny | dex | dey | tax | tay | txa | tya
  | tsx | pla => [.negative, .zero]
  | asl | lsr | rol | ror | cmp | cpx | cpy => [.negative, .zero, .carry]
  | bit => [.negative, .overflow, .zero]
  | clc | sec => [.carry]
  | cli | sei | brk => [.interruptDisable]
  | cld | sed => [.decimal]
  | clv => [.overflow]
  | plp | rti => [.negative, .overflow, .decimal, .interruptDisable, .zero, .carry]
  | txs | sta | stx | sty | bcc | bcs | bne | beq | bpl | bmi | bvc | bvs | jmp | jsr | rts | pha
  | php | nop | illegal => []

def fillsA : Mnemonic → Bool
  | adc | sbc | and | ora | eor | lda | pla | txa | tya => true
  | _ => false

def fillsX : Mnemonic → Bool
  | ldx | inx | dex | tax | tsx => true
  | _ => false

def fillsY : Mnemonic → Bool
  | ldy | iny | dey | tay => true
  | _ => false

def describesA : Mnemonic → Bool
  | and | ora | eor | lda | pla | txa | tya => true
  | _ => false

def isShift : Mnemonic → Bool
  | asl | lsr | rol | ror => true
  | _ => false

def isModify : Mnemonic → Bool
  | asl | lsr | rol | ror | inc | dec => true
  | _ => false

def comparand : Mnemonic → Option (Registers → UInt8)
  | cmp => some Registers.a
  | cpx => some Registers.x
  | cpy => some Registers.y
  | _ => none

def pushedBytes : Mnemonic → Nat
  | pha | php => 1
  | jsr => 2
  | brk => 3
  | _ => 0

def pulledBytes : Mnemonic → Nat
  | pla | plp => 1
  | rts => 2
  | rti => 3
  | _ => 0

end Mnemonic

namespace Status

/-- All flags are the same but for some. -/
def SameBut (flags : List Flag) (before after : Status) : Prop :=
  ∀ flag, flag ∉ flags → after.get flag = before.get flag

structure Describes (status : Status) (byte : UInt8) : Prop where
  zero : status.zero = true ↔ byte = 0
  negative : status.negative = true ↔ 128 ≤ byte.toNat

theorem sameBut_refl (flags : List Flag) (status : Status) : SameBut flags status status :=
  fun _ _ => rfl

theorem sameBut_describe (status : Status) (result : UInt8) :
    SameBut [.negative, .zero] status (status.describe result) := by
  intro flag unlisted
  cases flag <;> simp_all [describe, get]

theorem sameBut_shifted (status : Status) (result : UInt8) (carry : Bool) :
    SameBut [.negative, .zero, .carry] status (Action.shifted status result carry).2 := by
  intro flag unlisted
  cases flag <;> simp_all [Action.shifted, describe, get]

theorem sameBut_accept (registers : Registers) (sum : Sum) :
    SameBut [.negative, .overflow, .zero, .carry] registers.status
      (registers.accept sum).status := by
  intro flag unlisted
  cases flag <;> simp_all [Registers.accept, get]

theorem sameBut_compare (registers : Registers) (register value : UInt8) :
    SameBut [.negative, .zero, .carry] registers.status
      (registers.compare register value).status := by
  intro flag unlisted
  cases flag <;> simp_all [Registers.compare, describe, get]

theorem sameBut_testBits (registers : Registers) (value : UInt8) :
    SameBut [.negative, .overflow, .zero] registers.status (registers.testBits value).status := by
  intro flag unlisted
  cases flag <;> simp_all [Registers.testBits, get]

theorem sameBut_set (status : Status) (flag : Flag) (value : Bool) :
    SameBut [flag] status (status.set flag value) := by
  intro other unlisted
  rw [get_set, if_neg]
  rintro ⟨rfl, _⟩
  simp at unlisted

theorem sameBut_restore (registers : Registers) (byte : UInt8) :
    SameBut [.negative, .overflow, .decimal, .interruptDisable, .zero, .carry] registers.status
      (registers.restoreStatus byte).status := by
  intro flag unlisted
  cases flag <;> simp_all [Registers.restoreStatus, get]

theorem highBit_iff (byte : UInt8) : (byte &&& 0x80 != 0) = true ↔ 128 ≤ byte.toNat := by
  have table : ∀ value < 256, (UInt8.ofNat value &&& 0x80 != 0) = decide (128 ≤ value) := by
    decide +kernel
  have here := table byte.toNat byte.toNat_lt
  rw [UInt8.ofNat_toNat] at here
  rw [here, decide_eq_true_iff]

theorem describes_describe (status : Status) (result : UInt8) :
    (status.describe result).Describes result := by
  constructor
  · simp [describe]
  · exact highBit_iff result

theorem describes_shifted (status : Status) (result : UInt8) (carry : Bool) :
    (Action.shifted status result carry).2.Describes result :=
  ⟨(describes_describe status result).zero, (describes_describe status result).negative⟩

theorem describes_compare (registers : Registers) (register value : UInt8) :
    (registers.compare register value).status.Describes (register - value) :=
  ⟨(describes_describe registers.status _).zero, (describes_describe registers.status _).negative⟩

end Status

theorem Mnemonic.breakCommand_not_changed (mnemonic : Mnemonic) :
    Flag.breakCommand ∉ mnemonic.changedFlags := by
  cases mnemonic <;> decide

namespace Mnemonic

open Status (SameBut)

variable {β : Type} [Bus β] (memory : β) (registers : Registers) (place : Place)

theorem sameBut_changedFlags (mnemonic : Mnemonic) :
    SameBut mnemonic.changedFlags registers.status
      (mnemonic.action.registersAfter memory registers place).status := by
  have steady := Action.exists_steady memory registers place mnemonic.action
  cases mnemonic with
  | adc | sbc => exact Status.sameBut_accept _ _
  | and | ora | eor | lda | ldx | ldy | inx | iny | dex | dey | tax | tay | txa | tya | tsx | pla
  | inc | dec => exact Status.sameBut_describe _ _
  | asl | lsr | rol | ror => exact Status.sameBut_shifted _ _ _
  | cmp | cpx | cpy => exact Status.sameBut_compare _ _ _
  | bit => exact Status.sameBut_testBits _ _
  | clc | sec | cli | sei | cld | sed | clv => exact Status.sameBut_set _ _ _
  | brk => exact Status.sameBut_set registers.status .interruptDisable true
  | plp | rti => exact Status.sameBut_restore _ _
  | sta | stx | sty | bcc | bcs | bne | beq | bpl | bmi | bvc | bvs | jmp =>
      obtain ⟨_, _, same, _⟩ := steady rfl
      rw [same]
      exact Status.sameBut_refl _ _
  | jsr =>
      obtain ⟨_, called⟩ := Action.exists_called memory registers place
      rw [action, called]
      exact Status.sameBut_refl _ _
  | txs | rts | pha | php | nop | illegal => exact Status.sameBut_refl _ _

theorem a_kept {mnemonic : Mnemonic} (unlisted : mnemonic.fillsA = false)
    (elsewhere : place ≠ .accumulator) :
    (mnemonic.action.registersAfter memory registers place).a = registers.a := by
  have spares := Action.spares memory registers place mnemonic.action
  cases mnemonic with
  | adc | sbc | and | ora | eor | lda | pla | txa | tya => simp [fillsA] at unlisted
  | sta | stx | sty | bcc | bcs | bne | beq | bpl | bmi | bvc | bvs | jmp | jsr | asl | lsr | rol
  | ror | inc | dec => exact (spares rfl).a elsewhere
  | _ => rfl

theorem x_kept {mnemonic : Mnemonic} (unlisted : mnemonic.fillsX = false) :
    (mnemonic.action.registersAfter memory registers place).x = registers.x := by
  have spares := Action.spares memory registers place mnemonic.action
  cases mnemonic with
  | ldx | inx | dex | tax | tsx => simp [fillsX] at unlisted
  | sta | stx | sty | bcc | bcs | bne | beq | bpl | bmi | bvc | bvs | jmp | jsr | asl | lsr | rol
  | ror | inc | dec => exact (spares rfl).x
  | _ => rfl

theorem y_kept {mnemonic : Mnemonic} (unlisted : mnemonic.fillsY = false) :
    (mnemonic.action.registersAfter memory registers place).y = registers.y := by
  have spares := Action.spares memory registers place mnemonic.action
  cases mnemonic with
  | ldy | iny | dey | tay => simp [fillsY] at unlisted
  | sta | stx | sty | bcc | bcs | bne | beq | bpl | bmi | bvc | bvs | jmp | jsr | asl | lsr | rol
  | ror | inc | dec => exact (spares rfl).y
  | _ => rfl

theorem stackPointer_moved {mnemonic : Mnemonic} (another : mnemonic ≠ .txs) :
    (mnemonic.action.registersAfter memory registers place).stackPointer =
      registers.stackPointer - UInt8.ofNat mnemonic.pushedBytes +
        UInt8.ofNat mnemonic.pulledBytes := by
  have steady := Action.exists_steady memory registers place mnemonic.action
  have still : registers.stackPointer = registers.stackPointer - 0 + 0 := by simp
  cases mnemonic with
  | txs => exact absurd rfl another
  | sta | stx | sty | bcc | bcs | bne | beq | bpl | bmi | bvc | bvs | jmp =>
      obtain ⟨_, _, same, _⟩ := steady rfl
      rw [same]
      exact still
  | asl | lsr | rol | ror | inc | dec =>
      obtain ⟨_, modified, _⟩ := Action.exists_modified memory registers place _
      rw [action, modified]
      exact still
  | jsr =>
      obtain ⟨_, called⟩ := Action.exists_called memory registers place
      rw [action, called]
      change registers.stackPointer - 1 - 1 = registers.stackPointer - 2 + 0
      grind
  | brk =>
      change registers.stackPointer - 1 - 1 - 1 = registers.stackPointer - 3 + 0
      grind
  | pha | php =>
      change registers.stackPointer - 1 = registers.stackPointer - 1 + 0
      grind
  | pla | plp =>
      change registers.stackPointer + 1 = registers.stackPointer - 0 + 1
      grind
  | rts =>
      change registers.stackPointer + 1 + 1 = registers.stackPointer - 0 + 2
      grind
  | rti =>
      change registers.stackPointer + 1 + 1 + 1 = registers.stackPointer - 0 + 3
      grind
  | _ => exact still

theorem describes_a {mnemonic : Mnemonic} (listed : mnemonic.describesA = true) :
    (mnemonic.action.registersAfter memory registers place).status.Describes
      (mnemonic.action.registersAfter memory registers place).a := by
  cases mnemonic with
  | and | ora | eor | lda | pla | txa | tya => exact Status.describes_describe _ _
  | _ => simp [describesA] at listed

theorem describes_x {mnemonic : Mnemonic} (listed : mnemonic.fillsX = true) :
    (mnemonic.action.registersAfter memory registers place).status.Describes
      (mnemonic.action.registersAfter memory registers place).x := by
  cases mnemonic with
  | ldx | inx | dex | tax | tsx => exact Status.describes_describe _ _
  | _ => simp [fillsX] at listed

theorem describes_y {mnemonic : Mnemonic} (listed : mnemonic.fillsY = true) :
    (mnemonic.action.registersAfter memory registers place).status.Describes
      (mnemonic.action.registersAfter memory registers place).y := by
  cases mnemonic with
  | ldy | iny | dey | tay => exact Status.describes_describe _ _
  | _ => simp [fillsY] at listed

theorem describes_difference {mnemonic : Mnemonic} {register : Registers → UInt8}
    (listed : mnemonic.comparand = some register) :
    (mnemonic.action.registersAfter memory registers place).status.Describes
      (register registers - place.value registers memory) := by
  cases mnemonic with
  | cmp | cpx | cpy =>
      obtain rfl := Option.some.inj listed
      exact Status.describes_compare _ _ _
  | _ => simp [comparand] at listed

theorem comparand_elsewhere {mnemonic : Mnemonic} {register : Registers → UInt8}
    (listed : mnemonic.comparand = some register) (registers : Registers)
    (programCounter : UInt16) :
    register { registers with programCounter } = register registers := by
  cases mnemonic with
  | cmp | cpx | cpy =>
      obtain rfl := Option.some.inj listed
      rfl
  | _ => simp [comparand] at listed

theorem exists_described_result {mnemonic : Mnemonic} (listed : mnemonic.isModify = true) :
    ∃ result, (mnemonic.action.registersAfter memory registers place).status.Describes result ∧
      (place = .accumulator →
        (mnemonic.action.registersAfter memory registers place).a = result) ∧
      mnemonic.action.accesses memory registers place =
        place.reads memory ++ place.writes result := by
  have modifies : ∃ transform, mnemonic.action = .modify transform ∧
      ∀ status value, (transform status value).2.Describes (transform status value).1 := by
    cases mnemonic with
    | asl | lsr | rol | ror => exact ⟨_, rfl, fun _ _ => Status.describes_shifted _ _ _⟩
    | inc | dec => exact ⟨_, rfl, fun _ _ => Status.describes_describe _ _⟩
    | _ => simp [isModify] at listed
  obtain ⟨transform, isTransform, describes⟩ := modifies
  obtain ⟨a, modified, _, here⟩ := Action.exists_modified memory registers place transform
  rw [isTransform, modified]
  exact ⟨_, describes _ _, here, rfl⟩

end Mnemonic

namespace Access

variable {β : Type} [Bus β]

theorem mem_pulls {access : Access} {memory : β} {stackPointer : UInt8} {count : Nat}
    (member : access ∈ pulls memory stackPointer count) :
    access.kind = .read ∧ ∃ pointer, access.address = stackAddress pointer := by
  induction count generalizing stackPointer with
  | zero => simp [pulls] at member
  | succ count ih =>
      rw [pulls, List.mem_cons] at member
      rcases member with rfl | later
      · exact ⟨rfl, stackPointer + 1, rfl⟩
      · exact ih later

end Access

namespace Mnemonic

variable {β : Type} [Bus β] (memory : β) (registers : Registers) (place : Place)

theorem accesses_pushed {mnemonic : Mnemonic} (some : 0 < mnemonic.pushedBytes) :
    ∃ bytes, bytes.length = mnemonic.pushedBytes ∧
      mnemonic.action.accesses memory registers place =
        Access.pushes registers.stackPointer bytes := by
  cases mnemonic with
  | pha | php | jsr | brk => exact ⟨_, rfl, rfl⟩
  | _ => simp [pushedBytes] at some

theorem accesses_pulled {mnemonic : Mnemonic} (some : 0 < mnemonic.pulledBytes) :
    mnemonic.action.accesses memory registers place =
      Access.pulls memory registers.stackPointer mnemonic.pulledBytes := by
  cases mnemonic with
  | pla | plp | rts | rti => rfl
  | _ => simp [pulledBytes] at some

end Mnemonic

theorem Operand.resolve_accumulator_iff {β : Type} [Bus β] (mode : AddressingMode)
    (registers : Registers) (memory : β) (address : UInt16) :
    (resolve mode registers memory address).place = .accumulator ↔ mode = .accumulator := by
  cases mode <;> simp [resolve, indexed]

namespace Opcode

theorem isShift_of_accumulator (byte : UInt8) :
    (ofByte byte).mode = .accumulator → (ofByte byte).mnemonic.isShift = true :=
  forall_ofByte (P := fun opcode => opcode.mode = .accumulator → opcode.mnemonic.isShift = true)
    (by decide +kernel) byte

theorem exists_cell_of_isModify {β : Type} [Bus β] {byte : UInt8}
    (modifies : (ofByte byte).mnemonic.isModify = true)
    (elsewhere : (ofByte byte).mode ≠ .accumulator) (registers : Registers) (memory : β)
    (address : UInt16) : ∃ target,
      (Operand.resolve (ofByte byte).mode registers memory address).place = .cell target := by
  have modes : (ofByte byte).mode ∈
      [.accumulator, .zeroPage, .zeroPageX, .absolute, .absoluteX] :=
    forall_ofByte (P := fun opcode => opcode.mnemonic.isModify = true →
      opcode.mode ∈ [.accumulator, .zeroPage, .zeroPageX, .absolute, .absoluteX])
      (by decide +kernel) byte modifies
  simp only [List.mem_cons, List.not_mem_nil, or_false, elsewhere, false_or] at modes
  rcases modes with mode | mode | mode | mode
  all_goals
    rw [mode]
    exact ⟨_, rfl⟩

end Opcode

namespace Cpu

variable {β : Type} [Bus β]

def operandMode (executed : ExecutedInstruction) : AddressingMode :=
  (Opcode.ofByte executed.opcode).mode

/-- What an executed instruction may have changed, and what Z and N say about its result. The
accesses of the step are those that are recorded, if any are, and they account for what memory has
become. -/
structure TouchesDocumented (cpu after : Cpu β) (executed : ExecutedInstruction) : Prop where
  opcode : executed.opcode = Bus.read cpu.memory cpu.registers.programCounter
  mnemonic : executed.mnemonic = (Opcode.ofByte executed.opcode).mnemonic
  flags : Status.SameBut executed.mnemonic.changedFlags cpu.registers.status after.registers.status
  a : executed.mnemonic.fillsA = false →
    ¬(executed.mnemonic.isShift = true ∧ operandMode executed = .accumulator) →
    after.registers.a = cpu.registers.a
  x : executed.mnemonic.fillsX = false → after.registers.x = cpu.registers.x
  y : executed.mnemonic.fillsY = false → after.registers.y = cpu.registers.y
  txs : executed.mnemonic = .txs → after.registers.stackPointer = cpu.registers.x
  stackPointer : executed.mnemonic ≠ .txs → after.registers.stackPointer =
    cpu.registers.stackPointer - UInt8.ofNat executed.mnemonic.pushedBytes +
      UInt8.ofNat executed.mnemonic.pulledBytes
  recorded : after.accesses = if cpu.config.recordAccesses then cpu.stepAccesses else []
  applied : after.memory = settledMemory (Access.replay cpu.memory cpu.stepAccesses)
  pushes : 0 < executed.mnemonic.pushedBytes →
    cpu.stepAccesses.length = executed.mnemonic.pushedBytes ∧ ∀ access ∈ cpu.stepAccesses,
      access.kind = .write ∧ ∃ pointer, access.address = stackAddress pointer
  pulls : 0 < executed.mnemonic.pulledBytes →
    cpu.stepAccesses.length = executed.mnemonic.pulledBytes ∧ ∀ access ∈ cpu.stepAccesses,
      access.kind = .read ∧ ∃ pointer, access.address = stackAddress pointer
  describesA : executed.mnemonic.describesA = true →
    after.registers.status.Describes after.registers.a
  describesX : executed.mnemonic.fillsX = true →
    after.registers.status.Describes after.registers.x
  describesY : executed.mnemonic.fillsY = true →
    after.registers.status.Describes after.registers.y
  describesShifted : executed.mnemonic.isModify = true → operandMode executed = .accumulator →
    after.registers.status.Describes after.registers.a
  describesWritten : executed.mnemonic.isModify = true → operandMode executed ≠ .accumulator →
    ∃ address old result, after.registers.status.Describes result ∧
      cpu.stepAccesses = [⟨.read, address, old⟩, ⟨.write, address, result⟩]
  describesDifference : ∀ register, executed.mnemonic.comparand = some register →
    after.registers.status.Describes
      (register cpu.registers - cpu.nextOperand.place.value cpu.registers cpu.memory)

theorem Executes.memory_eq {cpu : Cpu β} {executed : ExecutedInstruction}
    (executes : cpu.Executes executed) :
    cpu.step.2.memory = settledMemory (Access.replay cpu.memory cpu.stepAccesses) := by
  have stepped : cpu.step = cpu.begin.executeInstruction.settle cpu.nextInstruction.cycles := by
    simp [step, executes.running, executes.free, executes.legal]
  have accesses : cpu.stepAccesses = cpu.instructionAccesses := by
    simp [stepAccesses, executes.running, executes.free, executes.legal]
  rw [stepped, settle_memory, (executeInstruction_logged cpu.begin).memory, accesses]
  rfl

theorem Executes.stepAccesses_eq {cpu : Cpu β} {executed : ExecutedInstruction}
    (executes : cpu.Executes executed) :
    cpu.stepAccesses = executed.mnemonic.action.accesses cpu.memory cpu.advancedRegisters
      cpu.nextOperand.place := by
  rw [stepAccesses, if_neg (by simp [executes.running]), executes.free, executes.instruction]
  simp only [executes.legal, Bool.false_eq_true, if_false]
  rfl

section

variable {cpu : Cpu β} {executed : ExecutedInstruction}

theorem Executes.registers_eq (executes : cpu.Executes executed) :
    cpu.step.2.registers = executed.mnemonic.action.registersAfter cpu.memory
      cpu.advancedRegisters cpu.nextOperand.place := by
  rw [executes.registers, executes.instruction]
  rfl

theorem Executes.opcode_eq (executes : cpu.Executes executed) :
    executed.opcode = cpu.opcodeByte := by
  rw [executes.instruction]
  rfl

theorem Executes.mnemonic_eq (executes : cpu.Executes executed) :
    executed.mnemonic = (Opcode.ofByte cpu.opcodeByte).mnemonic := by
  rw [executes.instruction]
  rfl

theorem Executes.place_accumulator_iff (executes : cpu.Executes executed) :
    cpu.nextOperand.place = .accumulator ↔ operandMode executed = .accumulator := by
  rw [operandMode, executes.opcode_eq]
  exact Operand.resolve_accumulator_iff _ _ _ _

theorem Executes.a_kept (executes : cpu.Executes executed)
    (unlisted : executed.mnemonic.fillsA = false)
    (noShift : ¬(executed.mnemonic.isShift = true ∧ operandMode executed = .accumulator)) :
    cpu.step.2.registers.a = cpu.registers.a := by
  rw [executes.registers_eq]
  refine Mnemonic.a_kept _ _ _ unlisted fun accumulator => ?_
  have mode := executes.place_accumulator_iff.mp accumulator
  refine noShift ⟨?_, mode⟩
  rw [operandMode, executes.opcode_eq] at mode
  rw [executes.mnemonic_eq]
  exact Opcode.isShift_of_accumulator _ mode

theorem Executes.pushes (executes : cpu.Executes executed)
    (some : 0 < executed.mnemonic.pushedBytes) :
    cpu.stepAccesses.length = executed.mnemonic.pushedBytes ∧ ∀ access ∈ cpu.stepAccesses,
      access.kind = .write ∧ ∃ pointer, access.address = stackAddress pointer := by
  obtain ⟨bytes, length, pushed⟩ :=
    Mnemonic.accesses_pushed cpu.memory cpu.advancedRegisters cpu.nextOperand.place some
  rw [executes.stepAccesses_eq, pushed, Access.pushes_length]
  refine ⟨length, fun access member => ?_⟩
  obtain ⟨write, _, _, address⟩ := Access.mem_pushes member
  exact ⟨write, _, address⟩

theorem Executes.pulls (executes : cpu.Executes executed)
    (some : 0 < executed.mnemonic.pulledBytes) :
    cpu.stepAccesses.length = executed.mnemonic.pulledBytes ∧ ∀ access ∈ cpu.stepAccesses,
      access.kind = .read ∧ ∃ pointer, access.address = stackAddress pointer := by
  have pulled :=
    Mnemonic.accesses_pulled cpu.memory cpu.advancedRegisters cpu.nextOperand.place some
  rw [executes.stepAccesses_eq, pulled, Access.pulls_length]
  exact ⟨rfl, fun access member => Access.mem_pulls member⟩

theorem Executes.describes_result (executes : cpu.Executes executed)
    (listed : executed.mnemonic.isModify = true) :
    (operandMode executed = .accumulator →
      cpu.step.2.registers.status.Describes cpu.step.2.registers.a) ∧
    (operandMode executed ≠ .accumulator →
      ∃ address old result, cpu.step.2.registers.status.Describes result ∧
        cpu.stepAccesses = [⟨.read, address, old⟩, ⟨.write, address, result⟩]) := by
  obtain ⟨result, describes, here, made⟩ := Mnemonic.exists_described_result cpu.memory
    cpu.advancedRegisters cpu.nextOperand.place listed
  rw [← executes.registers_eq] at describes here
  constructor
  · intro accumulator
    rw [here (executes.place_accumulator_iff.mpr accumulator)]
    exact describes
  · intro elsewhere
    rw [operandMode, executes.opcode_eq] at elsewhere
    rw [executes.mnemonic_eq] at listed
    obtain ⟨target, cell⟩ := Opcode.exists_cell_of_isModify listed elsewhere cpu.registers
      cpu.memory cpu.registers.programCounter
    refine ⟨target, Bus.read cpu.memory target, result, describes, ?_⟩
    rw [executes.stepAccesses_eq, made, nextOperand, cell]
    rfl

theorem Executes.describes_difference (executes : cpu.Executes executed)
    {register : Registers → UInt8} (listed : executed.mnemonic.comparand = some register) :
    cpu.step.2.registers.status.Describes
      (register cpu.registers - cpu.nextOperand.place.value cpu.registers cpu.memory) := by
  have describes := Mnemonic.describes_difference cpu.memory cpu.advancedRegisters
    cpu.nextOperand.place listed
  rwa [← executes.registers_eq, advancedRegisters, Mnemonic.comparand_elsewhere listed,
    Place.value_elsewhere] at describes

theorem Executes.touchesDocumented (executes : cpu.Executes executed) :
    TouchesDocumented cpu cpu.step.2 executed := by
  have registers := executes.registers_eq
  constructor
  case opcode => exact executes.opcode_eq
  case mnemonic => rw [executes.opcode_eq, executes.mnemonic_eq]
  case flags =>
    rw [registers]
    exact Mnemonic.sameBut_changedFlags _ _ _ _
  case a => exact executes.a_kept
  case x =>
    intro unlisted
    rw [registers]
    exact Mnemonic.x_kept _ _ _ unlisted
  case y =>
    intro unlisted
    rw [registers]
    exact Mnemonic.y_kept _ _ _ unlisted
  case txs =>
    intro txs
    rw [registers, txs]
    rfl
  case stackPointer =>
    intro another
    rw [registers]
    exact Mnemonic.stackPointer_moved _ _ _ another
  case recorded => exact cpu.step_accesses
  case applied => exact executes.memory_eq
  case pushes => exact executes.pushes
  case pulls => exact executes.pulls
  case describesA =>
    intro listed
    rw [registers]
    exact Mnemonic.describes_a _ _ _ listed
  case describesX =>
    intro listed
    rw [registers]
    exact Mnemonic.describes_x _ _ _ listed
  case describesY =>
    intro listed
    rw [registers]
    exact Mnemonic.describes_y _ _ _ listed
  case describesShifted => exact fun listed => (executes.describes_result listed).1
  case describesWritten => exact fun listed => (executes.describes_result listed).2
  case describesDifference => exact fun _ => executes.describes_difference

end

theorem step_breakCommand (cpu : Cpu β) :
    cpu.step.2.registers.status.breakCommand = cpu.registers.status.breakCommand := by
  rcases cpu.step_cases with ⟨_, stepped⟩ | ⟨source, _, _, stepped⟩ | ⟨_, _, _, stepped⟩ |
    ⟨_, _, _, stepped⟩
  · rw [stepped]
    rfl
  · rw [stepped, settle_registers]
    exact congrArg (fun registers => registers.status.breakCommand)
      (enterInterrupt_registers cpu.begin source)
  · rw [stepped]
    rfl
  · have last : cpu.step.2.lastStep = .executed cpu.nextInstruction := by
      rw [stepped, settle_lastStep]
      rfl
    exact (executes_of_lastStep last).touchesDocumented.flags .breakCommand
      (Mnemonic.breakCommand_not_changed _)

/-- No step changes B, and an executed instruction changes no more than what is documented. -/
theorem step_touches_documented (cpu : Cpu β) :
    cpu.step.2.registers.status.breakCommand = cpu.registers.status.breakCommand ∧
      ∀ executed, cpu.step.2.lastStep = .executed executed →
        TouchesDocumented cpu cpu.step.2 executed :=
  ⟨cpu.step_breakCommand, fun _ last => (executes_of_lastStep last).touchesDocumented⟩

/-- About to pull a status byte in which no bit is set, with B set and the stack pointer at
the top of its page. -/
def atPull : Cpu FlatMemory :=
  { memory := FlatMemory.zeroed.load 0x0000 [0x28]
    registers :=
      { stackPointer := 0xFF
        status := { Status.clear with breakCommand := true, carry := true } } }

theorem atPull_touches_documented :
    atPull.step.2.lastStep = .executed atPull.nextInstruction ∧
      atPull.nextInstruction.mnemonic = .plp ∧
      atPull.step.2.registers.status = { Status.clear with breakCommand := true } ∧
      atPull.step.2.registers.stackPointer = 0x00 ∧
      TouchesDocumented atPull atPull.step.2 atPull.nextInstruction := by
  have last : atPull.step.2.lastStep = .executed atPull.nextInstruction := by decide +kernel
  exact ⟨last, by decide +kernel, by decide +kernel, by decide +kernel,
    (step_touches_documented atPull).2 _ last⟩

end Cpu

end Nmos6502
