import Nmos6502.Proofs.Shifts

/-!
Where the data accesses of an instruction go. The documented addresses are worked out in whole
numbers from the registers and the bytes after the opcode, each with the wrap of its mode, and the
accesses of a step are measured against them.
-/

namespace Nmos6502

namespace FlatMemory

def byteAt (memory : FlatMemory) (address : Nat) : Nat :=
  (memory.read (UInt16.ofNat address)).toNat

def wordAt (memory : FlatMemory) (low high : Nat) : Nat :=
  memory.byteAt low + 0x100 * memory.byteAt high

theorem byteAt_toNat (memory : FlatMemory) (address : UInt16) :
    memory.byteAt address.toNat = (memory.read address).toNat := by
  rw [byteAt, UInt16.ofNat_toNat]

theorem wordAt_toNat (memory : FlatMemory) (low high : UInt16) :
    memory.wordAt low.toNat high.toNat = (wordOf (memory.read low) (memory.read high)).toNat := by
  rw [wordAt, byteAt_toNat, byteAt_toNat, toNat_wordOf, Nat.add_comm]

theorem wordAt_readWord (memory : FlatMemory) (address : UInt16) :
    memory.wordAt address.toNat ((address.toNat + 1) % 0x10000) =
      (Operand.readWord memory address).toNat := by
  have next : (address + 1).toNat = (address.toNat + 1) % 0x10000 := UInt16.toNat_add address 1
  rw [← next, wordAt_toNat]
  rfl

theorem wordAt_readZeroPagePointer (memory : FlatMemory) (address : UInt8) :
    memory.wordAt address.toNat ((address.toNat + 1) % 0x100) =
      (Operand.readZeroPagePointer memory address).toNat := by
  have next : (address + 1).toNat = (address.toNat + 1) % 0x100 := UInt8.toNat_add address 1
  rw [← next, ← UInt8.toNat_toUInt16, ← UInt8.toNat_toUInt16, wordAt_toNat]
  rfl

end FlatMemory

namespace AddressingMode

def isMemory : AddressingMode → Bool
  | zeroPage | zeroPageX | zeroPageY | absolute | absoluteX | absoluteY | indirectX | indirectY =>
    true
  | _ => false

end AddressingMode

namespace Cpu

def operandByte (cpu : Cpu FlatMemory) : Nat :=
  cpu.memory.byteAt ((cpu.registers.programCounter.toNat + 1) % 0x10000)

def operandWord (cpu : Cpu FlatMemory) : Nat :=
  cpu.memory.wordAt ((cpu.registers.programCounter.toNat + 1) % 0x10000)
    ((cpu.registers.programCounter.toNat + 2) % 0x10000)

/-- The address of an operand in memory, as the modes are documented. -/
def documentedAddress (cpu : Cpu FlatMemory) : AddressingMode → Option Nat
  | .zeroPage => some cpu.operandByte
  | .zeroPageX => some ((cpu.operandByte + cpu.registers.x.toNat) % 0x100)
  | .zeroPageY => some ((cpu.operandByte + cpu.registers.y.toNat) % 0x100)
  | .absolute => some cpu.operandWord
  | .absoluteX => some ((cpu.operandWord + cpu.registers.x.toNat) % 0x10000)
  | .absoluteY => some ((cpu.operandWord + cpu.registers.y.toNat) % 0x10000)
  | .indirectX =>
      some (cpu.memory.wordAt ((cpu.operandByte + cpu.registers.x.toNat) % 0x100)
        ((cpu.operandByte + cpu.registers.x.toNat + 1) % 0x100))
  | .indirectY =>
      some ((cpu.memory.wordAt cpu.operandByte ((cpu.operandByte + 1) % 0x100) +
        cpu.registers.y.toNat) % 0x10000)
  | .implicit | .accumulator | .immediate | .relative | .indirect => none

theorem operandByte_eq (cpu : Cpu FlatMemory) :
    cpu.operandByte = (cpu.memory.read (cpu.registers.programCounter + 1)).toNat := by
  have next := UInt16.toNat_add cpu.registers.programCounter 1
  rw [← FlatMemory.byteAt_toNat, next]
  rfl

theorem operandWord_eq (cpu : Cpu FlatMemory) :
    cpu.operandWord =
      (Operand.readWord cpu.memory (cpu.registers.programCounter + 1)).toNat := by
  have next : (cpu.registers.programCounter + 1).toNat =
      (cpu.registers.programCounter.toNat + 1) % 0x10000 :=
    UInt16.toNat_add cpu.registers.programCounter 1
  rw [← FlatMemory.wordAt_readWord, next, operandWord]
  congr 1
  omega

theorem toNat_indexed (base : UInt16) (index : UInt8) :
    (base + index.toUInt16).toNat = (base.toNat + index.toNat) % 0x10000 := by
  rw [UInt16.toNat_add, UInt8.toNat_toUInt16]

theorem exists_documentedAddress (cpu : Cpu FlatMemory) {mode : AddressingMode}
    (inMemory : mode.isMemory = true) :
    ∃ address : UInt16, cpu.documentedAddress mode = some address.toNat ∧
      (Operand.resolve mode cpu.registers cpu.memory cpu.registers.programCounter).place =
        .cell address := by
  have byte := cpu.operandByte_eq
  have word := cpu.operandWord_eq
  have offset (index : UInt8) : (cpu.memory.read (cpu.registers.programCounter + 1) + index).toNat =
      (cpu.operandByte + index.toNat) % 0x100 := by
    rw [UInt8.toNat_add, byte]
  cases mode with
  | zeroPage =>
      refine ⟨_, ?_, rfl⟩
      rw [documentedAddress, byte, ← UInt8.toNat_toUInt16]
      rfl
  | zeroPageX | zeroPageY =>
      refine ⟨_, ?_, rfl⟩
      rw [documentedAddress, ← offset, ← UInt8.toNat_toUInt16]
      rfl
  | absolute =>
      refine ⟨_, ?_, rfl⟩
      rw [documentedAddress, word]
  | absoluteX | absoluteY =>
      refine ⟨_, ?_, rfl⟩
      rw [documentedAddress, word, ← toNat_indexed]
  | indirectX =>
      refine ⟨_, ?_, rfl⟩
      have pointer := cpu.memory.wordAt_readZeroPagePointer
        (cpu.memory.read (cpu.registers.programCounter + 1) + cpu.registers.x)
      rw [offset, Nat.mod_add_mod] at pointer
      rw [documentedAddress, pointer]
      rfl
  | indirectY =>
      refine ⟨_, ?_, rfl⟩
      have pointer := cpu.memory.wordAt_readZeroPagePointer
        (cpu.memory.read (cpu.registers.programCounter + 1))
      rw [← byte] at pointer
      rw [documentedAddress, pointer, ← toNat_indexed]
      rfl
  | implicit | accumulator | immediate | relative | indirect =>
      simp [AddressingMode.isMemory] at inMemory

end Cpu

namespace Mnemonic

def isRead : Mnemonic → Bool
  | lda | ldx | ldy | adc | sbc | and | ora | eor | cmp | cpx | cpy | bit => true
  | _ => false

def stored : Mnemonic → Option (Registers → UInt8)
  | sta => some Registers.a
  | stx => some Registers.x
  | sty => some Registers.y
  | _ => none

def usesStack (mnemonic : Mnemonic) : Bool :=
  0 < mnemonic.pushedBytes + mnemonic.pulledBytes

def replacement (carry : Bool) (byte : Nat) : Mnemonic → Option Nat
  | asl => some (2 * byte % 0x100)
  | lsr => some (byte / 2)
  | rol => some (2 * byte % 0x100 + carry.toNat)
  | ror => some (byte / 2 + 0x80 * carry.toNat)
  | inc => some ((byte + 1) % 0x100)
  | dec => some ((byte + 0xFF) % 0x100)
  | _ => none

theorem action_of_isRead {mnemonic : Mnemonic} (reads : mnemonic.isRead = true) :
    ∃ use, mnemonic.action = .read use := by
  cases mnemonic with
  | lda | ldx | ldy | adc | sbc | and | ora | eor | cmp | cpx | cpy | bit => exact ⟨_, rfl⟩
  | _ => simp [isRead] at reads

theorem action_of_stored {mnemonic : Mnemonic} {register : Registers → UInt8}
    (stores : mnemonic.stored = some register) : mnemonic.action = .write register := by
  cases mnemonic with
  | sta | stx | sty =>
      obtain rfl := Option.some.inj stores
      rfl
  | _ => simp [stored] at stores

theorem stored_elsewhere {mnemonic : Mnemonic} {register : Registers → UInt8}
    (stores : mnemonic.stored = some register) (registers : Registers)
    (programCounter : UInt16) :
    register { registers with programCounter } = register registers := by
  cases mnemonic with
  | sta | stx | sty =>
      obtain rfl := Option.some.inj stores
      rfl
  | _ => simp [stored] at stores

theorem action_of_isModify {mnemonic : Mnemonic} (modifies : mnemonic.isModify = true) :
    ∃ transform, mnemonic.action = .modify transform ∧ ∀ status (byte : UInt8),
      mnemonic.replacement status.carry byte.toNat = some (transform status byte).1.toNat := by
  cases mnemonic with
  | asl =>
      refine ⟨_, rfl, fun status byte => ?_⟩
      have moved := Shift.toNat_shiftLeft_or byte false
      rw [if_neg Bool.false_ne_true, UInt8.or_zero] at moved
      exact congrArg some moved.symm
  | rol =>
      exact ⟨_, rfl, fun status byte =>
        congrArg some (Shift.toNat_shiftLeft_or byte status.carry).symm⟩
  | lsr =>
      refine ⟨_, rfl, fun status byte => ?_⟩
      have moved := Shift.toNat_shiftRight_or byte false
      rw [if_neg Bool.false_ne_true, UInt8.or_zero] at moved
      exact congrArg some moved.symm
  | ror =>
      exact ⟨_, rfl, fun status byte =>
        congrArg some (Shift.toNat_shiftRight_or byte status.carry).symm⟩
  | inc => exact ⟨_, rfl, fun status byte => congrArg some (UInt8.toNat_add byte 1).symm⟩
  | dec =>
      refine ⟨_, rfl, fun status byte => congrArg some ?_⟩
      change _ = (byte - 1).toNat
      rw [UInt8.toNat_sub, UInt8.toNat_one]
      omega
  | _ => simp [isModify] at modifies

/-- An instruction that does not use the stack is on the bus for an operand in memory and for
nothing else. A jump goes to its operand and does not read it. -/
theorem accesses_eq_nil {β : Type} [Bus β] {mnemonic : Mnemonic} (memory : β)
    (registers : Registers) {place : Place} (stackless : mnemonic.usesStack = false)
    (elsewhere : (∀ address, place ≠ .cell address) ∨ mnemonic.isControlFlow = true) :
    mnemonic.action.accesses memory registers place = [] := by
  have stays (noCell : ∀ address, place ≠ .cell address) :
      place.reads memory = [] ∧ ∀ value, place.writes value = [] := by
    cases place with
    | cell address => exact absurd rfl (noCell address)
    | nowhere | accumulator | constant _ => exact ⟨rfl, fun _ => rfl⟩
  cases mnemonic with
  | lda | ldx | ldy | adc | sbc | and | ora | eor | cmp | cpx | cpy | bit =>
      simp only [isControlFlow, Bool.false_eq_true, or_false] at elsewhere
      exact (stays elsewhere).1
  | sta | stx | sty =>
      simp only [isControlFlow, Bool.false_eq_true, or_false] at elsewhere
      exact (stays elsewhere).2 _
  | asl | lsr | rol | ror | inc | dec =>
      simp only [isControlFlow, Bool.false_eq_true, or_false] at elsewhere
      simp only [action, Action.accesses, stays elsewhere, List.append_nil]
  | pha | php | pla | plp | jsr | rts | rti | brk =>
      simp [usesStack, pushedBytes, pulledBytes] at stackless
  | _ => rfl

end Mnemonic

namespace Opcode

def staysInside (opcode : Opcode) : Bool :=
  match opcode.mode with
  | .immediate | .accumulator | .relative => true
  | .implicit => !opcode.mnemonic.usesStack
  | _ => opcode.mnemonic == .jmp

theorem isMemory_of_isRead (byte : UInt8) : (ofByte byte).mnemonic.isRead = true →
    (ofByte byte).mode ≠ .immediate → (ofByte byte).mode.isMemory = true :=
  forall_ofByte (P := fun opcode => opcode.mnemonic.isRead = true →
    opcode.mode ≠ .immediate → opcode.mode.isMemory = true) (by decide +kernel) byte

theorem isMemory_of_stored (byte : UInt8) : (ofByte byte).mnemonic.stored.isSome = true →
    (ofByte byte).mode.isMemory = true :=
  forall_ofByte (P := fun opcode => opcode.mnemonic.stored.isSome = true →
    opcode.mode.isMemory = true) (by decide +kernel) byte

theorem isMemory_of_isModify (byte : UInt8) : (ofByte byte).mnemonic.isModify = true →
    (ofByte byte).mode ≠ .accumulator → (ofByte byte).mode.isMemory = true :=
  forall_ofByte (P := fun opcode => opcode.mnemonic.isModify = true →
    opcode.mode ≠ .accumulator → opcode.mode.isMemory = true) (by decide +kernel) byte

theorem stackless_of_staysInside (byte : UInt8) : (ofByte byte).staysInside = true →
    (ofByte byte).mnemonic.usesStack = false ∧
      ((ofByte byte).mode ∈ [.immediate, .accumulator, .implicit] ∨
        (ofByte byte).mnemonic.isControlFlow = true) :=
  forall_ofByte (P := fun opcode => opcode.staysInside = true →
    opcode.mnemonic.usesStack = false ∧
      (opcode.mode ∈ [.immediate, .accumulator, .implicit] ∨
        opcode.mnemonic.isControlFlow = true)) (by decide +kernel) byte

/-- What an opcode has to do with its operand, if it is not one of the stack. -/
def isAccountedFor (opcode : Opcode) : Bool :=
  opcode.mnemonic.isRead || opcode.mnemonic.stored.isSome || opcode.mnemonic.isModify ||
    opcode.staysInside || opcode.mnemonic.usesStack

theorem isAccountedFor_ofByte (byte : UInt8) : (ofByte byte).isAccountedFor = true :=
  forall_ofByte (P := fun opcode => opcode.isAccountedFor = true) (by decide +kernel) byte

end Opcode

namespace Cpu

/-- The data accesses of a step that executes an instruction, and what becomes of them. -/
structure AccessesDocumented (cpu : Cpu FlatMemory) (opcode : Opcode) : Prop where
  reads : opcode.mnemonic.isRead = true → opcode.mode ≠ .immediate →
    ∃ address : UInt16, cpu.documentedAddress opcode.mode = some address.toNat ∧
      cpu.stepAccesses = [⟨.read, address, cpu.memory.read address⟩]
  stores : ∀ register, opcode.mnemonic.stored = some register →
    ∃ address : UInt16, cpu.documentedAddress opcode.mode = some address.toNat ∧
      cpu.stepAccesses = [⟨.write, address, register cpu.registers⟩]
  changes : opcode.mnemonic.isModify = true → opcode.mode ≠ .accumulator →
    ∃ (address : UInt16) (result : UInt8),
      cpu.documentedAddress opcode.mode = some address.toNat ∧
      opcode.mnemonic.replacement cpu.registers.status.carry (cpu.memory.read address).toNat =
        some result.toNat ∧
      cpu.stepAccesses =
        [⟨.read, address, cpu.memory.read address⟩, ⟨.write, address, result⟩]
  silent : opcode.staysInside = true → cpu.stepAccesses = []
  accounted : opcode.isAccountedFor = true
  recorded : cpu.step.2.accesses = if cpu.config.recordAccesses then cpu.stepAccesses else []
  applied : cpu.step.2.memory = Access.replay cpu.memory cpu.stepAccesses

section

variable {cpu : Cpu FlatMemory}

theorem stepAccesses_of_legal (running : cpu.halted = false) (free : cpu.dueInterrupt = none)
    (legal : cpu.meetsIllegalOpcode = false) :
    cpu.stepAccesses = (Opcode.ofByte cpu.opcodeByte).mnemonic.action.accesses cpu.memory
      cpu.advancedRegisters cpu.nextOperand.place := by
  simp only [stepAccesses, running, free, legal, Bool.false_eq_true, if_false]
  rfl

theorem legal_of_action {action : Action}
    (does : (Opcode.ofByte cpu.opcodeByte).mnemonic.action = action)
    (outward : ∀ update, action ≠ .internal update) : cpu.meetsIllegalOpcode = false := by
  rw [meetsIllegalOpcode, Bool.and_eq_false_iff, Opcode.isIllegal, beq_eq_false_iff_ne]
  left
  intro illegal
  rw [illegal] at does
  exact outward _ does.symm

theorem nextOperand_ne_cell
    (elsewhere : (Opcode.ofByte cpu.opcodeByte).mode ∈ [.immediate, .accumulator, .implicit])
    (address : UInt16) : cpu.nextOperand.place ≠ .cell address := by
  simp only [List.mem_cons, List.not_mem_nil, or_false] at elsewhere
  rcases elsewhere with mode | mode | mode
  all_goals
    rw [nextOperand, mode]
    simp [Operand.resolve]

theorem stepAccesses_of_staysInside (inside : (Opcode.ofByte cpu.opcodeByte).staysInside = true)
    (running : cpu.halted = false) (free : cpu.dueInterrupt = none) : cpu.stepAccesses = [] := by
  obtain ⟨stackless, place⟩ := Opcode.stackless_of_staysInside cpu.opcodeByte inside
  rcases legal : cpu.meetsIllegalOpcode with _ | _
  · rw [stepAccesses_of_legal running free legal]
    exact Mnemonic.accesses_eq_nil _ _ stackless (place.imp nextOperand_ne_cell id)
  · simp [stepAccesses, running, free, legal]

/-- On plain memory every data access of an instruction goes to its documented address. -/
theorem accesses_documented (running : cpu.halted = false) (free : cpu.dueInterrupt = none) :
    cpu.AccessesDocumented (Opcode.ofByte cpu.opcodeByte) where
  reads reads notImmediate := by
    obtain ⟨address, documented, place⟩ := cpu.exists_documentedAddress
      (Opcode.isMemory_of_isRead cpu.opcodeByte reads notImmediate)
    obtain ⟨use, action⟩ := Mnemonic.action_of_isRead reads
    have legal := legal_of_action action (by simp)
    refine ⟨address, documented, ?_⟩
    rw [stepAccesses_of_legal running free legal, action, nextOperand, place]
    rfl
  stores register stores := by
    obtain ⟨address, documented, place⟩ := cpu.exists_documentedAddress
      (Opcode.isMemory_of_stored cpu.opcodeByte (by rw [stores]; rfl))
    have action := Mnemonic.action_of_stored stores
    have legal := legal_of_action action (by simp)
    have elsewhere := Mnemonic.stored_elsewhere stores cpu.registers
    refine ⟨address, documented, ?_⟩
    rw [stepAccesses_of_legal running free legal, action, nextOperand, place, ← elsewhere]
    rfl
  changes modifies notAccumulator := by
    obtain ⟨address, documented, place⟩ := cpu.exists_documentedAddress
      (Opcode.isMemory_of_isModify cpu.opcodeByte modifies notAccumulator)
    obtain ⟨transform, action, replacement⟩ := Mnemonic.action_of_isModify modifies
    have legal := legal_of_action action (by simp)
    refine ⟨address, _, documented, replacement cpu.registers.status _, ?_⟩
    rw [stepAccesses_of_legal running free legal, action, nextOperand, place]
    rfl
  silent inside := stepAccesses_of_staysInside inside running free
  accounted := Opcode.isAccountedFor_ofByte cpu.opcodeByte
  recorded := cpu.step_accesses
  applied := cpu.flat_step_memory

end

def atFoldedPointer : Cpu FlatMemory :=
  { memory := FlatMemory.zeroed.loadAll [(0xFFFE, [0xB1, 0xFF, 0xFF]), (0x00FF, [0xFE])]
    registers := { programCounter := 0xFFFE, y := 0x01 } }

theorem atFoldedPointer_documented :
    atFoldedPointer.documentedAddress .indirectY = some 0xFFFF ∧
      atFoldedPointer.stepAccesses = [⟨.read, 0xFFFF, 0xFF⟩] ∧
      atFoldedPointer.AccessesDocumented ⟨.lda, .indirectY⟩ := by
  have running : atFoldedPointer.halted = false := rfl
  have free : atFoldedPointer.dueInterrupt = none := by decide +kernel
  have opcode : Opcode.ofByte atFoldedPointer.opcodeByte = ⟨.lda, .indirectY⟩ := by
    decide +kernel
  exact ⟨by decide +kernel, by decide +kernel, opcode ▸ accesses_documented running free⟩

end Cpu

end Nmos6502
