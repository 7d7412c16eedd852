import Nmos6502.Proofs.AccessLog
import Nmos6502.Proofs.Steps

/-!
The data accesses of every kind of step, told from the state before it. At most three are
made, no address is written twice, and memory changes by the writes among them alone.
-/

namespace Nmos6502

/-! Pushes and pulls move through the stack page, whose addresses are all different. -/

theorem toNat_stackAddress (stackPointer : UInt8) :
    (stackAddress stackPointer).toNat = 256 + stackPointer.toNat := by
  have bound := stackPointer.toNat_lt
  have joined := Nat.shiftLeft_add_eq_or_of_lt (b := stackPointer.toNat) (i := 8) bound 1
  simp only [stackAddress, stackPage, UInt16.toNat_or, UInt8.toNat_toUInt16]
  exact joined.symm

theorem stackAddress_injective {first second : UInt8}
    (same : stackAddress first = stackAddress second) : first = second := by
  have sameNat := congrArg UInt16.toNat same
  rw [toNat_stackAddress, toNat_stackAddress] at sameNat
  exact UInt8.toNat_inj.mp (by omega)

theorem ne_stackAddress {address : UInt16} (outside : address < 0x0100 ∨ 0x01FF < address)
    (stackPointer : UInt8) : address ≠ stackAddress stackPointer := by
  rintro rfl
  have bound := stackPointer.toNat_lt
  rw [UInt16.lt_iff_toNat_lt, UInt16.lt_iff_toNat_lt, toNat_stackAddress] at outside
  simp only [UInt16.reduceToNat] at outside
  omega

namespace Access

variable {β : Type} [Bus β]

def pushes (stackPointer : UInt8) : List UInt8 → List Access
  | [] => []
  | byte :: rest => ⟨.write, stackAddress stackPointer, byte⟩ :: pushes (stackPointer - 1) rest

def pulls (memory : β) (stackPointer : UInt8) : Nat → List Access
  | 0 => []
  | count + 1 =>
      let address := stackAddress (stackPointer + 1)
      ⟨.read, address, Bus.read memory address⟩ :: pulls memory (stackPointer + 1) count

end Access

namespace Cpu

variable {β : Type} [Bus β]

theorem pushByte_registers (cpu : Cpu β) (value : UInt8) :
    (cpu.pushByte value).registers =
      { cpu.registers with stackPointer := cpu.registers.stackPointer - 1 } := by
  simp only [pushByte, setStackPointer, mapRegisters]
  split <;> simp [noteStackWrap, write, record_registers]

theorem pushByte_logged (cpu : Cpu β) (value : UInt8) :
    Logged cpu (cpu.pushByte value) (Access.pushes cpu.registers.stackPointer [value]) := by
  have written := write_logged cpu (stackAddress cpu.registers.stackPointer) value
  simp only [pushByte]
  split
  · exact written.thenSilent rfl rfl rfl
  · exact written.thenSilent rfl rfl rfl

theorem pullByte_registers (cpu : Cpu β) :
    cpu.pullByte.2.registers =
      { cpu.registers with stackPointer := cpu.registers.stackPointer + 1 } := by
  simp only [pullByte, read, record_registers]
  split <;> rfl

theorem pullByte_memory (cpu : Cpu β) : cpu.pullByte.2.memory = cpu.memory := by
  simp only [pullByte, read, record_memory]
  split <;> rfl

theorem pullByte_logged (cpu : Cpu β) :
    Logged cpu cpu.pullByte.2 (Access.pulls cpu.memory cpu.registers.stackPointer 1) := by
  simp only [pullByte]
  split
  · exact (read_logged _ _).afterSilent rfl rfl rfl
  · exact (read_logged _ _).afterSilent rfl rfl rfl

theorem pushWord_registers (cpu : Cpu β) (value : UInt16) :
    (cpu.pushWord value).registers =
      { cpu.registers with stackPointer := cpu.registers.stackPointer - 1 - 1 } := by
  simp only [pushWord, pushByte_registers]

theorem pushWord_logged (cpu : Cpu β) (value : UInt16) :
    Logged cpu (cpu.pushWord value)
      (Access.pushes cpu.registers.stackPointer [highByte value, lowByte value]) := by
  have second := pushByte_logged (cpu.pushByte (highByte value)) (lowByte value)
  rw [pushByte_registers] at second
  exact (pushByte_logged cpu (highByte value)).trans second

theorem pullWord_logged (cpu : Cpu β) :
    Logged cpu cpu.pullWord.2 (Access.pulls cpu.memory cpu.registers.stackPointer 2) := by
  have second := pullByte_logged cpu.pullByte.2
  rw [pullByte_registers, pullByte_memory] at second
  exact (pullByte_logged cpu).trans second

def entryAccesses (registers : Registers) (source : Interrupt) : List Access :=
  Access.pushes registers.stackPointer
    [highByte registers.programCounter, lowByte registers.programCounter,
      interruptStatus registers.status source]

theorem enterInterrupt_logged (cpu : Cpu β) (source : Interrupt) :
    Logged cpu (cpu.enterInterrupt source) (entryAccesses cpu.registers source) := by
  have status := pushByte_logged (cpu.pushWord cpu.registers.programCounter)
    (interruptStatus cpu.registers.status source)
  rw [pushWord_registers] at status
  have pushed := (pushWord_logged cpu cpu.registers.programCounter).trans status
  simp only [enterInterrupt]
  generalize (cpu.pushWord cpu.registers.programCounter).pushByte
    (interruptStatus cpu.registers.status source) = saved at pushed ⊢
  cases source with
  | nmi | irq | brk => exact pushed.thenSilent rfl rfl rfl

end Cpu

namespace Action

variable {β : Type} [Bus β]

theorem follow_logged (place : Place) (cpu : Cpu β) : Cpu.Logged cpu (follow place cpu) [] := by
  cases place with
  | nowhere | accumulator | constant value | cell address => exact .silent rfl rfl rfl

def accesses (memory : β) (registers : Registers) (place : Place) : Action → List Access
  | read _ => place.reads memory
  | write source => place.writes (source registers)
  | modify transform =>
      place.reads memory ++
        place.writes (transform registers.status (place.value registers memory)).1
  | internal _ | branch _ | jump => []
  | push source => Access.pushes registers.stackPointer [source registers]
  | pull _ => Access.pulls memory registers.stackPointer 1
  | call =>
      Access.pushes registers.stackPointer
        [highByte (registers.programCounter - 1), lowByte (registers.programCounter - 1)]
  | subroutineReturn => Access.pulls memory registers.stackPointer 2
  | interruptReturn => Access.pulls memory registers.stackPointer 3
  | softwareInterrupt =>
      Cpu.entryAccesses { registers with programCounter := registers.programCounter + 1 } .brk

theorem perform_logged (action : Action) (place : Place) (cpu : Cpu β) :
    Cpu.Logged cpu (action.perform place cpu)
      (action.accesses cpu.memory cpu.registers place) := by
  cases action with
  | read use =>
      exact (Cpu.load_logged cpu place).thenRegisters fun registers =>
        use registers (cpu.load place).1
  | write source => exact Cpu.store_logged cpu place (source cpu.registers)
  | modify transform =>
      have stored := (Cpu.load_logged cpu place).trans (Cpu.store_logged (cpu.load place).2 place
        (transform (cpu.load place).2.registers.status (cpu.load place).1).1)
      rw [Cpu.load_registers, Cpu.load_value] at stored
      simp only [perform, Cpu.load_registers, Cpu.load_value]
      exact stored.thenRegisters _
  | internal update => exact Cpu.mapRegisters_logged cpu update
  | branch condition =>
      simp only [perform]
      split
      · exact follow_logged place cpu
      · exact .silent rfl rfl rfl
  | push source => exact Cpu.pushByte_logged cpu (source cpu.registers)
  | pull use =>
      exact (Cpu.pullByte_logged cpu).thenRegisters fun registers =>
        use registers cpu.pullByte.1
  | jump => exact follow_logged place cpu
  | call =>
      have pushed := (Cpu.pushWord_logged cpu (cpu.registers.programCounter - 1)).trans
        (follow_logged place (cpu.pushWord (cpu.registers.programCounter - 1)))
      rwa [List.append_nil] at pushed
  | subroutineReturn =>
      exact (Cpu.pullWord_logged cpu).thenRegisters fun registers =>
        { registers with programCounter := cpu.pullWord.1 + 1 }
  | interruptReturn =>
      -- The status comes off first, and restoring it moves neither the stack pointer nor memory.
      have pulled := Cpu.pullByte_logged cpu
      have sameMemory := Cpu.pullByte_memory cpu
      have registers := Cpu.pullByte_registers cpu
      simp only [perform]
      generalize cpu.pullByte = first at pulled sameMemory registers ⊢
      let restored := first.2.mapRegisters fun registers => registers.restoreStatus first.1
      have stackPointer : restored.registers.stackPointer = cpu.registers.stackPointer + 1 :=
        congrArg Registers.stackPointer registers
      have memory : restored.memory = cpu.memory := sameMemory
      have word := Cpu.pullWord_logged restored
      rw [stackPointer, memory] at word
      exact (pulled.trans word.afterRegisters).thenRegisters fun registers =>
        { registers with programCounter := restored.pullWord.1 }
  | softwareInterrupt => exact (Cpu.enterInterrupt_logged _ .brk).afterRegisters

end Action

theorem sub_one_sub_ofNat (stackPointer : UInt8) (offset : Nat) :
    stackPointer - 1 - UInt8.ofNat offset = stackPointer - UInt8.ofNat (offset + 1) := by
  rw [UInt8.ofNat_add]
  grind

namespace Access

theorem mem_pushes {access : Access} {stackPointer : UInt8} {bytes : List UInt8}
    (member : access ∈ pushes stackPointer bytes) :
    access.kind = .write ∧ ∃ offset < bytes.length,
      access.address = stackAddress (stackPointer - UInt8.ofNat offset) := by
  induction bytes generalizing stackPointer with
  | nil => simp [pushes] at member
  | cons byte rest ih =>
      simp only [pushes, List.mem_cons] at member
      rcases member with rfl | later
      · exact ⟨rfl, 0, by simp, by simp⟩
      · obtain ⟨write, offset, below, address⟩ := ih later
        exact ⟨write, offset + 1, by simpa using below,
          by rw [address, sub_one_sub_ofNat]⟩

/-- As long as the stack page has room, no push lands on another. -/
theorem pushes_nodup (stackPointer : UInt8) (bytes : List UInt8) (room : bytes.length ≤ 256) :
    ((pushes stackPointer bytes).map Access.address).Nodup := by
  induction bytes generalizing stackPointer with
  | nil => simp [pushes]
  | cons byte rest ih =>
      rw [List.length_cons] at room
      rw [pushes, List.map_cons, List.nodup_cons]
      refine ⟨?_, ih (stackPointer - 1) (by omega)⟩
      intro again
      obtain ⟨access, member, same⟩ := List.mem_map.mp again
      obtain ⟨_, offset, below, address⟩ := mem_pushes member
      have equal := congrArg UInt8.toNat (stackAddress_injective (address.symm.trans same))
      have bound := stackPointer.toNat_lt
      simp only [UInt8.toNat_sub, UInt8.toNat_ofNat', UInt8.toNat_one] at equal
      omega

/-- Few enough accesses for one step, and no two writes of one address. -/
structure Brief (log : List Access) : Prop where
  length : log.length ≤ 3
  distinct : ((log.filter isWrite).map Access.address).Nodup

theorem brief_nil : Brief [] :=
  ⟨by decide, .nil⟩

theorem Brief.sublist {part log : List Access} (brief : Brief log) (sublist : part.Sublist log) :
    Brief part :=
  ⟨Nat.le_trans sublist.length_le brief.length,
    brief.distinct.sublist ((sublist.filter isWrite).map Access.address)⟩

theorem pushes_length (stackPointer : UInt8) (bytes : List UInt8) :
    (pushes stackPointer bytes).length = bytes.length := by
  induction bytes generalizing stackPointer with
  | nil => rfl
  | cons byte rest ih => simp [pushes, ih]

theorem pushes_brief (stackPointer : UInt8) (bytes : List UInt8) (few : bytes.length ≤ 3) :
    Brief (pushes stackPointer bytes) := by
  constructor
  · rwa [pushes_length]
  · have writes : (pushes stackPointer bytes).filter isWrite = pushes stackPointer bytes := by
      rw [List.filter_eq_self]
      intro access member
      simp [isWrite, (mem_pushes member).1]
    rw [writes]
    exact pushes_nodup stackPointer bytes (by omega)

variable {β : Type} [Bus β]

theorem pulls_length (memory : β) (stackPointer : UInt8) (count : Nat) :
    (pulls memory stackPointer count).length = count := by
  induction count generalizing stackPointer with
  | zero => rfl
  | succ count ih => simp [pulls, ih]

theorem pulls_no_write (memory : β) (stackPointer : UInt8) (count : Nat) :
    (pulls memory stackPointer count).filter isWrite = [] := by
  induction count generalizing stackPointer with
  | zero => rfl
  | succ count ih =>
      rw [pulls, List.filter_cons_of_neg (by simp [isWrite])]
      exact ih (stackPointer + 1)

theorem pulls_brief (memory : β) (stackPointer : UInt8) (count : Nat) (few : count ≤ 3) :
    Brief (pulls memory stackPointer count) := by
  constructor
  · rwa [pulls_length]
  · rw [pulls_no_write]
    exact .nil

end Access

theorem Place.brief {β : Type} [Bus β] (place : Place) (memory : β) (value : UInt8) :
    Access.Brief (place.reads memory ++ place.writes value) := by
  cases place with
  | cell address => exact ⟨by simp [reads, writes], by simp [reads, writes, Access.isWrite]⟩
  | nowhere | accumulator | constant _ => exact Access.brief_nil

theorem Action.accesses_brief {β : Type} [Bus β] (action : Action) (memory : β)
    (registers : Registers) (place : Place) :
    Access.Brief (action.accesses memory registers place) := by
  cases action with
  | read use => exact (place.brief memory 0).sublist (List.sublist_append_left _ _)
  | write source =>
      exact (place.brief memory (source registers)).sublist (List.sublist_append_right _ _)
  | modify transform => exact place.brief memory _
  | internal _ | branch _ | jump => exact Access.brief_nil
  | push source => exact Access.pushes_brief _ _ (by simp)
  | pull use => exact Access.pulls_brief _ _ _ (by decide)
  | call => exact Access.pushes_brief _ _ (by simp)
  | subroutineReturn => exact Access.pulls_brief _ _ _ (by decide)
  | interruptReturn => exact Access.pulls_brief _ _ _ (by decide)
  | softwareInterrupt => exact Access.pushes_brief _ _ (by simp)

namespace Cpu

variable {β : Type} [Bus β]

def instructionAccesses (cpu : Cpu β) : List Access :=
  let opcode := Opcode.ofByte cpu.opcodeByte
  let address := cpu.registers.programCounter
  let operand := Operand.resolve opcode.mode cpu.registers cpu.memory address
  opcode.mnemonic.action.accesses cpu.memory
    { cpu.registers with programCounter := address + UInt16.ofNat opcode.size } operand.place

/-- What the next step does over the bus. A halted processor does nothing, and neither does
an illegal opcode that halts it. -/
def stepAccesses (cpu : Cpu β) : List Access :=
  if cpu.halted then []
  else
    match cpu.dueInterrupt with
    | some source => entryAccesses cpu.registers source
    | none => if cpu.meetsIllegalOpcode then [] else cpu.instructionAccesses

theorem serviceInterrupt_logged (cpu : Cpu β) (source : Interrupt) :
    Logged cpu (cpu.serviceInterrupt source) (entryAccesses cpu.registers source) :=
  (enterInterrupt_logged cpu source).thenSilent rfl rfl rfl

theorem executeInstruction_logged (cpu : Cpu β) :
    Logged cpu cpu.executeInstruction cpu.instructionAccesses := by
  have performed := Action.perform_logged (Opcode.ofByte cpu.opcodeByte).mnemonic.action
    (Operand.resolve (Opcode.ofByte cpu.opcodeByte).mode cpu.registers cpu.memory
      cpu.registers.programCounter).place
    (cpu.jumpTo (cpu.registers.programCounter +
      UInt16.ofNat (Opcode.ofByte cpu.opcodeByte).size))
  exact performed.afterRegisters.thenSilent rfl rfl rfl

theorem settle_accesses (cpu : Cpu β) (cycles : Nat) :
    (cpu.settle cycles).2.accesses = cpu.accesses := by
  simp only [settle]
  split <;> rfl

theorem settle_config (cpu : Cpu β) (cycles : Nat) :
    (cpu.settle cycles).2.config = cpu.config := by
  simp only [settle]
  split <;> rfl

/-- What is left on the bus when a step has been settled: a fault is taken from it. -/
def settledMemory (memory : β) : β :=
  if (Bus.fault memory).isSome then Bus.clearFault memory else memory

theorem settle_memory (cpu : Cpu β) (cycles : Nat) :
    (cpu.settle cycles).2.memory = settledMemory cpu.memory := by
  simp only [settle, settledMemory]
  split <;> simp_all

theorem step_logged (cpu : Cpu β) :
    ∃ ended, Logged cpu.begin ended cpu.stepAccesses ∧
      cpu.step.2.accesses = ended.accesses ∧ cpu.step.2.config = ended.config ∧
      (cpu.step.2.memory = ended.memory ∨ cpu.step.2.memory = settledMemory ended.memory) := by
  rcases cpu.step_cases with ⟨halted, stepped⟩ | ⟨source, running, due, stepped⟩ |
    ⟨running, due, illegal, stepped⟩ | ⟨running, due, legal, stepped⟩
  · have idle : cpu.stepAccesses = [] := by simp [stepAccesses, halted]
    rw [idle, stepped]
    exact ⟨cpu.begin, .silent rfl rfl rfl, rfl, rfl, .inl rfl⟩
  · have entered : cpu.stepAccesses = entryAccesses cpu.registers source := by
      simp [stepAccesses, running, due]
    rw [entered, stepped]
    exact ⟨_, serviceInterrupt_logged cpu.begin source, settle_accesses _ _, settle_config _ _,
      .inr (settle_memory _ _)⟩
  · have refused : cpu.stepAccesses = [] := by simp [stepAccesses, running, due, illegal]
    rw [refused, stepped]
    exact ⟨cpu.begin, .silent rfl rfl rfl, rfl, rfl, .inl rfl⟩
  · have executed : cpu.stepAccesses = cpu.instructionAccesses := by
      simp [stepAccesses, running, due, legal]
    rw [executed, stepped]
    exact ⟨_, executeInstruction_logged cpu.begin, settle_accesses _ _, settle_config _ _,
      .inr (settle_memory _ _)⟩

theorem step_accesses (cpu : Cpu β) :
    cpu.step.2.accesses = if cpu.config.recordAccesses then cpu.stepAccesses else [] := by
  obtain ⟨ended, logged, accesses, _, _⟩ := cpu.step_logged
  rw [accesses, logged.accesses]
  rfl

theorem step_accesses_recording {cpu : Cpu β} (recording : cpu.config.recordAccesses = true) :
    cpu.step.2.accesses = cpu.stepAccesses := by
  rw [step_accesses, if_pos recording]

theorem step_config (cpu : Cpu β) : cpu.step.2.config = cpu.config := by
  obtain ⟨ended, logged, _, config, _⟩ := cpu.step_logged
  rw [config, logged.config]
  rfl

theorem step_memory (cpu : Cpu β) :
    cpu.step.2.memory = Access.replay cpu.memory cpu.stepAccesses ∨
      cpu.step.2.memory = settledMemory (Access.replay cpu.memory cpu.stepAccesses) := by
  obtain ⟨ended, logged, _, _, memory⟩ := cpu.step_logged
  rwa [logged.memory] at memory

theorem stepAccesses_truthful (cpu : Cpu β) : Access.Truthful cpu.memory cpu.stepAccesses := by
  obtain ⟨ended, logged, _⟩ := cpu.step_logged
  exact logged.truthful

theorem stepAccesses_brief (cpu : Cpu β) : Access.Brief cpu.stepAccesses := by
  simp only [stepAccesses]
  split
  · exact Access.brief_nil
  · split
    · exact Access.pushes_brief _ _ (by simp)
    · split
      · exact Access.brief_nil
      · exact Action.accesses_brief _ _ _ _

theorem settle_lastStep (cpu : Cpu β) (cycles : Nat) :
    (cpu.settle cycles).2.lastStep = cpu.lastStep := by
  simp only [settle]
  split <;> rfl

theorem stepAccesses_idle {cpu : Cpu β}
    (idle : cpu.step.2.lastStep = .nothing ∨ cpu.step.2.lastStep = .halted) :
    cpu.stepAccesses = [] := by
  rcases cpu.step_cases with ⟨halted, _⟩ | ⟨source, _, _, stepped⟩ |
    ⟨running, due, illegal, _⟩ | ⟨_, _, _, stepped⟩
  · simp [stepAccesses, halted]
  · rw [stepped, settle_lastStep] at idle
    simp [serviceInterrupt] at idle
  · simp [stepAccesses, running, due, illegal]
  · rw [stepped, settle_lastStep] at idle
    simp [executeInstruction, retire] at idle

theorem step_forgets (cpu : Cpu β) (stale : List Access) :
    ({ cpu with accesses := stale }).step = cpu.step := rfl

end Cpu

end Nmos6502
