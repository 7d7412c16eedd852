import Mathlib.Tactic.IntervalCases
import Nmos6502.Debugger.Observe
import Nmos6502.Proofs.FlatLog
import Nmos6502.Proofs.RegisterEffects

/-!
An instruction that is executed against the same instruction as it is decoded from memory: what
the two have in common, where control goes on, and what a trace of it shows.
-/

namespace Nmos6502

namespace Mnemonic

/-- The flag that a branch tests, and what it has to be for the branch to be taken. -/
def branchTest : Mnemonic → Option (Flag × Bool)
  | bcc => some (.carry, false)
  | bcs => some (.carry, true)
  | bne => some (.zero, false)
  | beq => some (.zero, true)
  | bpl => some (.negative, false)
  | bmi => some (.negative, true)
  | bvc => some (.overflow, false)
  | bvs => some (.overflow, true)
  | _ => none

def isControlFlow : Mnemonic → Bool
  | bcc | bcs | bne | beq | bpl | bmi | bvc | bvs | jmp | jsr | rts | rti | brk => true
  | _ => false

end Mnemonic

theorem Hex.word_injective {left right : UInt16} (same : word left = word right) :
    left = right := by
  have digits := congrArg String.toList same
  simp only [word, byte, String.toList_append, String.toList_ofList] at digits
  obtain ⟨high, low⟩ := List.append_inj digits rfl
  have highs := congrArg UInt8.toNat (byteDigits_injective high)
  have lows := congrArg UInt8.toNat (byteDigits_injective low)
  simp only [UInt16.toNat_toUInt8, UInt16.toNat_shiftRight, UInt16.toNat_ofNat, Nat.reducePow,
    Nat.reduceMod, Nat.shiftRight_eq_div_pow] at highs lows
  have leftBound := left.toNat_lt
  have rightBound := right.toNat_lt
  exact UInt16.toNat_inj.mp (by omega)

def nextOnPage (address : UInt16) : UInt16 :=
  wordOf (lowByte address + 1) (highByte address)

/-! What the matrix says about the modes of illegal opcodes and of those that steer control. -/

namespace Opcode

theorem mode_of_isIllegal (byte : UInt8) :
    (ofByte byte).isIllegal = true → (ofByte byte).mode = .implicit :=
  forall_ofByte (P := fun opcode => opcode.isIllegal = true → opcode.mode = .implicit)
    (by decide +kernel) byte

theorem mode_relative_iff (byte : UInt8) :
    (ofByte byte).mode = .relative ↔ (ofByte byte).mnemonic.branchTest.isSome :=
  forall_ofByte
    (P := fun opcode => opcode.mode = .relative ↔ opcode.mnemonic.branchTest.isSome)
    (by decide +kernel) byte

theorem mode_of_jmp (byte : UInt8) : (ofByte byte).mnemonic = .jmp →
    (ofByte byte).mode = .absolute ∨ (ofByte byte).mode = .indirect :=
  forall_ofByte (P := fun opcode => opcode.mnemonic = .jmp →
    opcode.mode = .absolute ∨ opcode.mode = .indirect) (by decide +kernel) byte

theorem mode_of_jsr (byte : UInt8) :
    (ofByte byte).mnemonic = .jsr → (ofByte byte).mode = .absolute :=
  forall_ofByte (P := fun opcode => opcode.mnemonic = .jsr → opcode.mode = .absolute)
    (by decide +kernel) byte

end Opcode

namespace Instruction

structure Decodes (instruction : Instruction) (address : UInt16) (byte low high : UInt8) :
    Prop where
  address : instruction.address = address
  opcode : instruction.opcode = byte
  mnemonic : instruction.mnemonic = (Opcode.ofByte byte).mnemonic
  mode : instruction.mode = (Opcode.ofByte byte).mode
  size : instruction.size = (Opcode.ofByte byte).size
  operands : takeOperands (Opcode.ofByte byte).mode.operandLength [low, high] =
    some instruction.operands

theorem exists_decodes (address : UInt16) (byte low high : UInt8) :
    ∃ decoded, decode address [byte, low, high] = some decoded ∧
      decoded.Decodes address byte low high := by
  rcases illegal : (Opcode.ofByte byte).isIllegal with _ | _
  · obtain ⟨operands, taken⟩ : ∃ operands,
        takeOperands (Opcode.ofByte byte).mode.operandLength [low, high] = some operands := by
      cases (Opcode.ofByte byte).mode <;> exact ⟨_, rfl⟩
    refine ⟨_, by simp only [decode, illegal, Bool.false_eq_true, if_false, taken]; rfl, ?_⟩
    exact ⟨rfl, rfl, rfl, rfl, rfl, taken⟩
  · have mode := Opcode.mode_of_isIllegal byte illegal
    have mnemonic : (Opcode.ofByte byte).mnemonic = .illegal := by
      simpa [Opcode.isIllegal] using illegal
    refine ⟨dataByte address byte, by simp only [decode, illegal, if_true], ?_⟩
    constructor
    · rfl
    · rfl
    · rw [mnemonic]
      rfl
    · rw [mode]
      rfl
    · rw [Opcode.size, mode]
      rfl
    · rw [mode]
      rfl

section

variable {instruction : Instruction} {address : UInt16} {byte low high : UInt8}

theorem take_of_takeOperands {count : Nat} {operands : UInt8 × UInt8}
    (taken : takeOperands count [low, high] = some operands) :
    [operands.1, operands.2].take count = [low, high].take count := by
  rcases count with _ | _ | _ | count
  · rfl
  · rw [← Option.some.inj taken]
    rfl
  · rw [← Option.some.inj taken]
  · simp [takeOperands] at taken

theorem Decodes.operandBytes_eq (decodes : instruction.Decodes address byte low high) :
    instruction.operandBytes =
      Nmos6502.operandBytes (low, high) (Opcode.ofByte byte).size := by
  rw [operandBytes, decodes.size, Opcode.size]
  exact take_of_takeOperands decodes.operands

theorem Decodes.target_eq (decodes : instruction.Decodes address byte low high)
    (mode : (Opcode.ofByte byte).mode = .relative) :
    instruction.target = Operand.branchTarget address low := by
  have taken := decodes.operands
  rw [mode] at taken
  rw [target, decodes.address, ← Option.some.inj taken]

theorem Decodes.word_eq (decodes : instruction.Decodes address byte low high)
    (mode : (Opcode.ofByte byte).mode = .absolute ∨ (Opcode.ofByte byte).mode = .indirect) :
    instruction.word = wordOf low high := by
  have taken := decodes.operands
  rcases mode with mode | mode
  all_goals
    rw [mode] at taken
    rw [word, ← Option.some.inj taken]

end

theorem decode_operandBytes (address : UInt16) (byte low high : UInt8) :
    decode address (byte :: Nmos6502.operandBytes (low, high) (Opcode.ofByte byte).size) =
      decode address [byte, low, high] := by
  rcases illegal : (Opcode.ofByte byte).isIllegal with _ | _
  · simp only [decode, illegal, Bool.false_eq_true, if_false, Opcode.size]
    cases (Opcode.ofByte byte).mode <;> rfl
  · simp only [decode, illegal, if_true]

end Instruction

namespace Mnemonic

variable {β : Type} [Bus β] (memory : β) (registers : Registers) (place : Place)

theorem programCounter_kept {mnemonic : Mnemonic} (straight : mnemonic.isControlFlow = false) :
    (mnemonic.action.registersAfter memory registers place).programCounter =
      registers.programCounter := by
  cases mnemonic with
  | bcc | bcs | bne | beq | bpl | bmi | bvc | bvs | jmp | jsr | rts | rti | brk =>
      simp [isControlFlow] at straight
  | sta | stx | sty =>
      obtain ⟨_, stored, _⟩ := place.exists_stored registers _
      rw [action, Action.registersAfter, stored]
  | asl | lsr | rol | ror | inc | dec =>
      obtain ⟨_, modified, _⟩ := Action.exists_modified memory registers place _
      rw [action, modified]
  | _ => rfl

theorem isControlFlow_of_branchTest {mnemonic : Mnemonic} {test : Flag × Bool}
    (tests : mnemonic.branchTest = some test) : mnemonic.isControlFlow = true := by
  cases mnemonic with
  | bcc | bcs | bne | beq | bpl | bmi | bvc | bvs => rfl
  | _ => simp [branchTest] at tests

theorem registersAfter_branch {mnemonic : Mnemonic} {flag : Flag} {wanted : Bool}
    (tests : mnemonic.branchTest = some (flag, wanted)) :
    (registers.status.get flag = wanted →
      mnemonic.action.registersAfter memory registers place = place.entered registers) ∧
    (registers.status.get flag ≠ wanted →
      mnemonic.action.registersAfter memory registers place = registers) := by
  cases mnemonic with
  | bcc | bcs | bne | beq | bpl | bmi | bvc | bvs =>
      obtain ⟨rfl, rfl⟩ := Prod.mk.inj (Option.some.inj tests)
      simp only [action, Action.registersAfter, Status.get]
      exact ⟨fun holds => if_pos (by simp [holds]), fun fails => if_neg (by simpa using fails)⟩
  | _ => simp [branchTest] at tests

end Mnemonic

/-! The pointer of an indirect jump. -/

theorem high_bits (word : BitVec 16) :
    word &&& 0xFF00#16 = ((word >>> 8).setWidth 8).setWidth 16 <<< 8 := by
  ext place bound
  simp
  interval_cases place <;> simp

theorem pageOf_eq_highByte (address : UInt16) :
    pageOf address = (highByte address).toUInt16 <<< 8 :=
  UInt16.toBitVec_inj.mp (high_bits address.toBitVec)

theorem nextOnPage_eq (address : UInt16) :
    pageOf address ||| (address + 1) &&& 0x00FF = nextOnPage address := by
  have offset : (address + 1) &&& 0x00FF = (lowByte address + 1).toUInt16 := by
    apply UInt16.toNat_inj.mp
    simp only [lowByte, UInt16.toNat_and, UInt16.toNat_add, UInt8.toNat_toUInt16, UInt8.toNat_add,
      UInt16.toNat_toUInt8, UInt16.toNat_ofNat, UInt8.toNat_one]
    rw [show (255 : Nat) % 2 ^ 16 = 2 ^ 8 - 1 from rfl, Nat.and_two_pow_sub_one_eq_mod]
    omega
  rw [pageOf_eq_highByte, offset]
  rfl

namespace Debugger

theorem reportAny_trace (debugger : Debugger) (event : Option Event) :
    (debugger.reportAny event).trace = debugger.trace := by
  cases event <;> rfl

theorem meetBreakpoint_trace (debugger : Debugger) {β : Type} (cpu : Cpu β) :
    (debugger.meetBreakpoint cpu).1.trace = debugger.trace := by
  simp only [meetBreakpoint]
  split
  · rfl
  · rw [reportAny_trace]
    split <;> rfl

variable {β : Type} [Bus β]

theorem watchAccesses_trace (debugger : Debugger) (cpu : Cpu β) (log : List Access) :
    (debugger.watchAccesses cpu log).1.trace = debugger.trace := by
  have watchAccess (debugger : Debugger) (access : Access) :
      (debugger.watchAccess cpu access).1.trace = debugger.trace := by
    simp only [Debugger.watchAccess]
    split
    · rfl
    · exact reportAny_trace _ _
  induction log generalizing debugger with
  | nil => rfl
  | cons access rest ih => exact (ih _).trans (watchAccess debugger access)

theorem observe_trace {debugger : Debugger} {cpu : Cpu β} {executed : ExecutedInstruction}
    {trace : Trace} (active : debugger.active = true) (underWay : debugger.trace = some trace)
    (last : cpu.lastStep = .executed executed) :
    (debugger.observe cpu).1.trace = some (trace.push ⟨executed, cpu.registers⟩) := by
  have traced : (debugger.traceInstruction ⟨executed, cpu.registers⟩).trace =
      some (trace.push ⟨executed, cpu.registers⟩) := by
    simp only [traceInstruction, underWay]
    split <;> rfl
  simp only [observe, active, if_true, last, lookAround]
  rw [meetBreakpoint_trace, watchAccesses_trace, traced]

end Debugger

namespace Instruction

/-- The text shows this and no other address after the mnemonic. -/
def Prints (instruction : Instruction) (address : UInt16) : Prop :=
  ∀ shown, instruction.text = instruction.mnemonic.text ++ " $" ++ Hex.word shown ↔
    shown = address

def PrintsPointer (instruction : Instruction) (pointer : UInt16) : Prop :=
  ∀ shown, instruction.text = instruction.mnemonic.text ++ " ($" ++ Hex.word shown ++ ")" ↔
    shown = pointer

section

variable {instruction : Instruction}

theorem text_of_isControlFlow (controls : instruction.mnemonic.isControlFlow = true) :
    instruction.text = instruction.mnemonic.text ++ instruction.operandText := by
  have known : instruction.isData = false := by
    rw [isData]
    cases mnemonic : instruction.mnemonic with
    | illegal => simp [mnemonic, Mnemonic.isControlFlow] at controls
    | _ => rfl
  rw [text, known]
  rfl

theorem prints_of_operandText {address : UInt16}
    (controls : instruction.mnemonic.isControlFlow = true)
    (shows : instruction.operandText = " $" ++ Hex.word address) : instruction.Prints address := by
  intro shown
  rw [text_of_isControlFlow controls, shows, String.append_assoc, String.append_right_inj,
    String.append_right_inj]
  exact ⟨fun same => (Hex.word_injective same).symm, fun same => by rw [same]⟩

theorem prints_target (controls : instruction.mnemonic.isControlFlow = true)
    (mode : instruction.mode = .relative) : instruction.Prints instruction.target :=
  prints_of_operandText controls (by simp only [operandText, mode])

theorem prints_word (controls : instruction.mnemonic.isControlFlow = true)
    (mode : instruction.mode = .absolute) : instruction.Prints instruction.word :=
  prints_of_operandText controls (by simp only [operandText, mode])

theorem printsPointer_word (controls : instruction.mnemonic.isControlFlow = true)
    (mode : instruction.mode = .indirect) : instruction.PrintsPointer instruction.word := by
  intro shown
  rw [text_of_isControlFlow controls]
  simp only [operandText, mode]
  rw [← String.append_assoc, ← String.append_assoc, String.append_left_inj,
    String.append_right_inj]
  exact ⟨fun same => (Hex.word_injective same).symm, fun same => by rw [same]⟩

end

end Instruction

namespace Cpu

/-- An executed instruction and the step that executed it agree with the decoded instruction. -/
structure Agrees (cpu after : Cpu FlatMemory) (executed : ExecutedInstruction)
    (decoded : Instruction) : Prop where
  address : executed.address = decoded.address
  opcode : executed.opcode = decoded.opcode
  mnemonic : executed.mnemonic = decoded.mnemonic
  size : executed.size = decoded.size
  operandBytes : executed.operandBytes = decoded.operandBytes
  remembered : after.lastInstruction = some executed
  disassembled : ∀ entry : TraceEntry, entry.instruction = executed →
    entry.disassembly = decoded.text
  traced : ∀ (debugger : Debugger) (trace : Trace), debugger.active = true →
    debugger.trace = some trace → ∃ entry : TraceEntry, entry.instruction = executed ∧
      (debugger.observe after).1.trace = some (trace.push entry)
  straight : decoded.mnemonic.isControlFlow = false →
    after.registers.programCounter = cpu.registers.programCounter + UInt16.ofNat decoded.size
  branch : ∀ flag wanted, decoded.mnemonic.branchTest = some (flag, wanted) →
    (cpu.registers.status.get flag = wanted → decoded.Prints after.registers.programCounter) ∧
    (cpu.registers.status.get flag ≠ wanted →
      after.registers.programCounter = cpu.registers.programCounter + 2)
  call : decoded.mnemonic = .jsr → decoded.Prints after.registers.programCounter
  jump : decoded.mnemonic = .jmp → decoded.mode = .absolute →
    decoded.Prints after.registers.programCounter
  indirectJump : decoded.mnemonic = .jmp → decoded.mode ≠ .absolute →
    ∃ pointer, decoded.PrintsPointer pointer ∧ after.registers.programCounter =
      wordOf (cpu.memory.read pointer) (cpu.memory.read (nextOnPage pointer))
  softwareInterrupt : decoded.mnemonic = .brk → after.registers.programCounter =
    wordOf (cpu.memory.read 0xFFFE) (cpu.memory.read 0xFFFF)

/-- The pushes stay in the stack page, so that the vector is what it was before. -/
theorem enteredRegisters_vector (memory : FlatMemory) (registers : Registers)
    (source : Interrupt) :
    (enteredRegisters memory registers source).programCounter =
      Operand.readWord memory source.vector := by
  have kept {address : UInt16} (above : 0x01FF < address) :
      (Access.replay memory (entryAccesses registers source)).read address =
        memory.read address :=
    Access.read_replay_pushes_outside memory _ _ (.inr above)
  have low : 0x01FF < source.vector := by cases source <;> decide
  have high : 0x01FF < source.vector + 1 := by cases source <;> decide
  exact congrArg₂ wordOf (kept low) (kept high)

section

variable {cpu : Cpu FlatMemory} {executed : ExecutedInstruction} {decoded : Instruction}

def Fetches (cpu : Cpu FlatMemory) (decoded : Instruction) : Prop :=
  decoded.Decodes cpu.registers.programCounter cpu.opcodeByte
    (cpu.memory.read (cpu.registers.programCounter + 1))
    (cpu.memory.read (cpu.registers.programCounter + 2))

theorem Executes.registers_of_fetches (executes : cpu.Executes executed)
    (fetches : cpu.Fetches decoded) :
    cpu.step.2.registers = decoded.mnemonic.action.registersAfter cpu.memory
      cpu.advancedRegisters cpu.nextOperand.place := by
  rw [executes.registers, fetches.mnemonic]

theorem readWord_operands (memory : FlatMemory) (address : UInt16) :
    Operand.readWord memory (address + 1) =
      wordOf (memory.read (address + 1)) (memory.read (address + 2)) := by
  rw [Operand.readWord, UInt16.add_assoc]
  rfl

theorem Executes.branched (executes : cpu.Executes executed) (fetches : cpu.Fetches decoded)
    {flag : Flag} {wanted : Bool} (tests : decoded.mnemonic.branchTest = some (flag, wanted)) :
    (cpu.registers.status.get flag = wanted →
      decoded.Prints cpu.step.2.registers.programCounter) ∧
    (cpu.registers.status.get flag ≠ wanted →
      cpu.step.2.registers.programCounter = cpu.registers.programCounter + 2) := by
  have mode : (Opcode.ofByte cpu.opcodeByte).mode = .relative := by
    refine (Opcode.mode_relative_iff _).mpr ?_
    rw [← fetches.mnemonic, tests]
    rfl
  have controls := Mnemonic.isControlFlow_of_branchTest tests
  have place : cpu.nextOperand.place = .cell decoded.target := by
    rw [fetches.target_eq mode, nextOperand, mode]
    rfl
  have registers := executes.registers_of_fetches fetches
  obtain ⟨taken, passed⟩ := Mnemonic.registersAfter_branch cpu.memory cpu.advancedRegisters
    cpu.nextOperand.place tests
  constructor
  · intro holds
    rw [registers, taken holds, place]
    exact Instruction.prints_target controls (fetches.mode.trans mode)
  · intro fails
    rw [registers, passed fails, advancedRegisters, Opcode.size, mode]
    rfl

theorem Fetches.place_absolute (fetches : cpu.Fetches decoded)
    (mode : (Opcode.ofByte cpu.opcodeByte).mode = .absolute) :
    cpu.nextOperand.place = .cell decoded.word := by
  rw [fetches.word_eq (.inl mode), nextOperand, mode, ← readWord_operands]
  rfl

theorem Fetches.place_indirect (fetches : cpu.Fetches decoded)
    (mode : (Opcode.ofByte cpu.opcodeByte).mode = .indirect) :
    cpu.nextOperand.place = .cell (wordOf (cpu.memory.read decoded.word)
      (cpu.memory.read (nextOnPage decoded.word))) := by
  rw [fetches.word_eq (.inr mode), nextOperand, mode, ← readWord_operands, ← nextOnPage_eq]
  rfl

theorem Executes.called (executes : cpu.Executes executed) (fetches : cpu.Fetches decoded)
    (jsr : decoded.mnemonic = .jsr) : decoded.Prints cpu.step.2.registers.programCounter := by
  have mode := Opcode.mode_of_jsr _ (fetches.mnemonic.symm.trans jsr)
  rw [executes.registers_of_fetches fetches, jsr, fetches.place_absolute mode]
  exact Instruction.prints_word (by rw [jsr]; rfl) (fetches.mode.trans mode)

theorem Executes.jumped (executes : cpu.Executes executed) (fetches : cpu.Fetches decoded)
    (jmp : decoded.mnemonic = .jmp) (absolute : decoded.mode = .absolute) :
    decoded.Prints cpu.step.2.registers.programCounter := by
  have mode := fetches.mode.symm.trans absolute
  rw [executes.registers_of_fetches fetches, jmp, fetches.place_absolute mode]
  exact Instruction.prints_word (by rw [jmp]; rfl) absolute

theorem Executes.jumpedIndirect (executes : cpu.Executes executed)
    (fetches : cpu.Fetches decoded) (jmp : decoded.mnemonic = .jmp)
    (another : decoded.mode ≠ .absolute) :
    ∃ pointer, decoded.PrintsPointer pointer ∧ cpu.step.2.registers.programCounter =
      wordOf (cpu.memory.read pointer) (cpu.memory.read (nextOnPage pointer)) := by
  have mode : (Opcode.ofByte cpu.opcodeByte).mode = .indirect := by
    rw [fetches.mode] at another
    exact (Opcode.mode_of_jmp _ (fetches.mnemonic.symm.trans jmp)).resolve_left another
  refine ⟨decoded.word, ?_, ?_⟩
  · exact Instruction.printsPointer_word (by rw [jmp]; rfl) (fetches.mode.trans mode)
  · rw [executes.registers_of_fetches fetches, jmp, fetches.place_indirect mode]
    rfl

theorem Executes.interrupted (executes : cpu.Executes executed) (fetches : cpu.Fetches decoded)
    (brk : decoded.mnemonic = .brk) : cpu.step.2.registers.programCounter =
      wordOf (cpu.memory.read 0xFFFE) (cpu.memory.read 0xFFFF) := by
  rw [executes.registers_of_fetches fetches, brk]
  exact enteredRegisters_vector cpu.memory _ .brk

theorem Executes.passed (executes : cpu.Executes executed) (fetches : cpu.Fetches decoded)
    (straight : decoded.mnemonic.isControlFlow = false) : cpu.step.2.registers.programCounter =
      cpu.registers.programCounter + UInt16.ofNat decoded.size := by
  rw [executes.registers_of_fetches fetches, Mnemonic.programCounter_kept _ _ _ straight,
    fetches.size]
  rfl

/-- The bytes that an entry has kept decode to the same instruction, whatever has become of those
in memory. -/
theorem Executes.disassembled (executes : cpu.Executes executed)
    (found : Instruction.decode cpu.registers.programCounter
      [cpu.memory.read cpu.registers.programCounter,
        cpu.memory.read (cpu.registers.programCounter + 1),
        cpu.memory.read (cpu.registers.programCounter + 2)] = some decoded)
    {entry : TraceEntry} (recorded : entry.instruction = executed) :
    entry.disassembly = decoded.text := by
  have spelled : Instruction.decode executed.address (executed.opcode :: executed.operandBytes) =
      some decoded := by
    rw [executes.instruction]
    exact (Instruction.decode_operandBytes _ _ _ _).trans found
  rw [TraceEntry.disassembly, TraceEntry.decoded, recorded, Instruction.decodeOrData, spelled]
  rfl

end

/-- An instruction that a step has executed is the one that was decoded from memory before it. -/
theorem step_agrees_with_decoder (cpu : Cpu FlatMemory) (executed : ExecutedInstruction)
    (last : cpu.step.2.lastStep = .executed executed) :
    ∃ decoded, Instruction.decode cpu.registers.programCounter
        [cpu.memory.read cpu.registers.programCounter,
          cpu.memory.read (cpu.registers.programCounter + 1),
          cpu.memory.read (cpu.registers.programCounter + 2)] = some decoded ∧
      Agrees cpu cpu.step.2 executed decoded := by
  have executes := executes_of_lastStep last
  obtain ⟨decoded, found, fetches⟩ := Instruction.exists_decodes cpu.registers.programCounter
    (cpu.memory.read cpu.registers.programCounter)
    (cpu.memory.read (cpu.registers.programCounter + 1))
    (cpu.memory.read (cpu.registers.programCounter + 2))
  have same := executes.instruction
  refine ⟨decoded, found, ?_⟩
  constructor
  case address =>
    rw [same, fetches.address]
    rfl
  case opcode =>
    rw [same, fetches.opcode]
    rfl
  case mnemonic =>
    rw [same, fetches.mnemonic]
    rfl
  case size =>
    rw [same, fetches.size]
    rfl
  case operandBytes =>
    rw [same, fetches.operandBytes_eq]
    rfl
  case remembered => exact executes.remembered
  case disassembled => exact fun entry recorded => executes.disassembled found recorded
  case traced =>
    intro debugger trace active underWay
    exact ⟨_, rfl, Debugger.observe_trace active underWay last⟩
  case straight => exact executes.passed fetches
  case branch => exact fun flag wanted tests => executes.branched fetches tests
  case call => exact executes.called fetches
  case jump => exact executes.jumped fetches
  case indirectJump => exact executes.jumpedIndirect fetches
  case softwareInterrupt => exact executes.interrupted fetches

def atOverwrite : Cpu FlatMemory :=
  { memory := FlatMemory.zeroed.load 0xFFFF [0x85, 0x00]
    registers := { a := 0xAA, programCounter := 0xFFFF } }

theorem atOverwrite_agrees_with_decoder :
    atOverwrite.step.2.lastStep = .executed atOverwrite.nextInstruction ∧
      atOverwrite.step.2.memory.read 0x0000 = 0xAA ∧
      atOverwrite.step.2.registers.programCounter = 0x0001 ∧
      ∃ decoded, Instruction.decode 0xFFFF
          [atOverwrite.memory.read 0xFFFF, atOverwrite.memory.read 0x0000,
            atOverwrite.memory.read 0x0001] = some decoded ∧
        Agrees atOverwrite atOverwrite.step.2 atOverwrite.nextInstruction decoded := by
  have last : atOverwrite.step.2.lastStep = .executed atOverwrite.nextInstruction := by
    decide +kernel
  exact ⟨last, by decide +kernel, by decide +kernel,
    step_agrees_with_decoder atOverwrite _ last⟩

end Cpu

end Nmos6502
