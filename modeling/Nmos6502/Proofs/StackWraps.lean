import Nmos6502.Proofs.InstructionEffects
import Nmos6502.Proofs.Undisturbed

/-!
When the stack pointer goes around its page. A step that pushes or pulls notes one wrap if the
bytes do not fit between the pointer and the end of the page, and none otherwise; what it notes is
where the step began.
-/

namespace Nmos6502

def WrapKind.room : WrapKind → UInt8 → Nat
  | overflow, stackPointer => stackPointer.toNat
  | underflow, stackPointer => 0xFF - stackPointer.toNat

theorem WrapKind.room_lt (kind : WrapKind) (stackPointer : UInt8) :
    kind.room stackPointer < 0x100 := by
  have bound := stackPointer.toNat_lt
  cases kind <;> simp only [room] <;> omega

theorem WrapKind.overflow_room_lt_one (stackPointer : UInt8) :
    overflow.room stackPointer < 1 ↔ stackPointer = 0x00 := by
  rw [room, ← UInt8.toNat_inj, UInt8.toNat_zero]
  omega

theorem WrapKind.underflow_room_lt_one (stackPointer : UInt8) :
    underflow.room stackPointer < 1 ↔ stackPointer = 0xFF := by
  have bound := stackPointer.toNat_lt
  rw [room, ← UInt8.toNat_inj]
  change _ ↔ _ = 0xFF
  omega

namespace Cpu

section

variable {β : Type}

/-- One wrap has been noted if so many bytes had no room, and none if they had. -/
structure NotesWrap (kind : WrapKind) (count : Nat) (before after : Cpu β) : Prop where
  stackWraps : after.stackWraps = before.stackWraps +
    if kind.room before.registers.stackPointer < count then 1 else 0
  lastStackWrap : after.lastStackWrap =
    if kind.room before.registers.stackPointer < count then some ⟨kind, before.origin⟩
    else before.lastStackWrap

structure MovesStack (kind : WrapKind) (count : Nat) (before after : Cpu β) : Prop
    extends NotesWrap kind count before after where
  room : kind.room after.registers.stackPointer =
    (kind.room before.registers.stackPointer + 0x100 - count) % 0x100
  origin : after.origin = before.origin

/-- Bytes that go one after the other over the page wrap once at most. -/
theorem MovesStack.trans {kind : WrapKind} {first second : Nat} {before middle after : Cpu β}
    (early : MovesStack kind first before middle) (late : MovesStack kind second middle after)
    (fewer : first + second ≤ 0x100) : MovesStack kind (first + second) before after := by
  have bound := kind.room_lt before.registers.stackPointer
  have room := early.room
  constructor
  · constructor
    · rw [late.stackWraps, early.stackWraps]
      grind
    · rw [late.lastStackWrap, early.lastStackWrap, early.origin]
      grind
  · rw [late.room, room]
    omega
  · rw [late.origin, early.origin]

structure KeepsWraps (before after : Cpu β) : Prop where
  stackWraps : after.stackWraps = before.stackWraps
  lastStackWrap : after.lastStackWrap = before.lastStackWrap

theorem KeepsWraps.notes {before after : Cpu β} (keeps : KeepsWraps before after)
    (kind : WrapKind) : NotesWrap kind 0 before after where
  stackWraps := by simpa using keeps.stackWraps
  lastStackWrap := by simpa using keeps.lastStackWrap

theorem NotesWrap.thenKeeps {kind : WrapKind} {count : Nat} {before middle after : Cpu β}
    (notes : NotesWrap kind count before middle) (keeps : KeepsWraps middle after) :
    NotesWrap kind count before after where
  stackWraps := keeps.stackWraps.trans notes.stackWraps
  lastStackWrap := keeps.lastStackWrap.trans notes.lastStackWrap

theorem KeepsWraps.trans {before middle after : Cpu β} (first : KeepsWraps before middle)
    (second : KeepsWraps middle after) : KeepsWraps before after where
  stackWraps := second.stackWraps.trans first.stackWraps
  lastStackWrap := second.lastStackWrap.trans first.lastStackWrap

theorem KeepsWraps.thenRegisters {before after : Cpu β} (keeps : KeepsWraps before after)
    (update : Registers → Registers) : KeepsWraps before (after.mapRegisters update) :=
  ⟨keeps.stackWraps, keeps.lastStackWrap⟩

theorem NotesWrap.thenRegisters {kind : WrapKind} {count : Nat} {before after : Cpu β}
    (notes : NotesWrap kind count before after) (update : Registers → Registers) :
    NotesWrap kind count before (after.mapRegisters update) :=
  ⟨notes.stackWraps, notes.lastStackWrap⟩

theorem KeepsWraps.refl (cpu : Cpu β) : KeepsWraps cpu cpu :=
  ⟨rfl, rfl⟩

theorem record_keepsWraps (cpu : Cpu β) (access : Access) : KeepsWraps cpu (cpu.record access) :=
  ⟨cpu.record_stackWraps access, cpu.record_lastStackWrap access⟩

theorem follow_keepsWraps (place : Place) (cpu : Cpu β) :
    KeepsWraps cpu (Action.follow place cpu) := by
  cases place <;> exact ⟨rfl, rfl⟩

end

variable {β : Type} [Bus β]

theorem load_keepsWraps (cpu : Cpu β) (place : Place) : KeepsWraps cpu (cpu.load place).2 := by
  cases place with
  | cell address => exact cpu.record_keepsWraps _
  | nowhere | accumulator | constant _ => exact ⟨rfl, rfl⟩

theorem write_keepsWraps (cpu : Cpu β) (address : UInt16) (value : UInt8) :
    KeepsWraps cpu (cpu.write address value) :=
  ⟨record_stackWraps _ _, record_lastStackWrap _ _⟩

theorem store_keepsWraps (cpu : Cpu β) (place : Place) (value : UInt8) :
    KeepsWraps cpu (cpu.store place value) := by
  cases place with
  | cell address => exact cpu.write_keepsWraps address value
  | nowhere | accumulator | constant _ => exact ⟨rfl, rfl⟩

theorem pushByte_moves (cpu : Cpu β) (value : UInt8) :
    MovesStack .overflow 1 cpu (cpu.pushByte value) := by
  have atEnd := WrapKind.overflow_room_lt_one cpu.registers.stackPointer
  have written := cpu.write_keepsWraps (stackAddress cpu.registers.stackPointer) value
  have origin := (cpu.write_undisturbed (stackAddress cpu.registers.stackPointer) value).origin
  constructor
  · simp only [pushByte]
    split
    · rename_i wrapped
      constructor
      · rw [if_pos (atEnd.mpr wrapped), ← written.stackWraps]
        rfl
      · rw [if_pos (atEnd.mpr wrapped), ← origin]
        rfl
    · rename_i within
      constructor
      · rw [if_neg (mt atEnd.mp within)]
        exact written.stackWraps
      · rw [if_neg (mt atEnd.mp within)]
        exact written.lastStackWrap
  · rw [pushByte_registers]
    simp only [WrapKind.room, UInt8.toNat_sub, UInt8.toNat_one]
    omega
  · exact (cpu.pushByte_undisturbed value).origin

theorem pullByte_moves (cpu : Cpu β) : MovesStack .underflow 1 cpu cpu.pullByte.2 := by
  have bound := cpu.registers.stackPointer.toNat_lt
  have atEnd := WrapKind.underflow_room_lt_one cpu.registers.stackPointer
  constructor
  · simp only [pullByte]
    split
    · rename_i wrapped
      have recorded (moved : Cpu β) (address : UInt16) :=
        moved.record_keepsWraps ⟨.read, address, Bus.read moved.memory address⟩
      constructor
      · rw [if_pos (atEnd.mpr wrapped)]
        exact (recorded _ _).stackWraps
      · rw [if_pos (atEnd.mpr wrapped)]
        exact (recorded _ _).lastStackWrap
    · rename_i within
      constructor
      · rw [if_neg (mt atEnd.mp within)]
        exact (record_keepsWraps _ _).stackWraps
      · rw [if_neg (mt atEnd.mp within)]
        exact (record_keepsWraps _ _).lastStackWrap
  · rw [pullByte_registers]
    simp only [WrapKind.room, UInt8.toNat_add, UInt8.toNat_one]
    omega
  · exact cpu.pullByte_undisturbed.origin

theorem pushWord_moves (cpu : Cpu β) (value : UInt16) :
    MovesStack .overflow 2 cpu (cpu.pushWord value) :=
  (cpu.pushByte_moves _).trans (pushByte_moves _ _) (by decide)

theorem pullWord_moves (cpu : Cpu β) : MovesStack .underflow 2 cpu cpu.pullWord.2 :=
  cpu.pullByte_moves.trans (pullByte_moves _) (by decide)

theorem enterInterrupt_notes (cpu : Cpu β) (source : Interrupt) :
    NotesWrap .overflow 3 cpu (cpu.enterInterrupt source) := by
  have pushed := (cpu.pushWord_moves cpu.registers.programCounter).trans
    (pushByte_moves _ (interruptStatus cpu.registers.status source)) (by decide)
  simp only [enterInterrupt]
  generalize (cpu.pushWord cpu.registers.programCounter).pushByte
    (interruptStatus cpu.registers.status source) = saved at pushed ⊢
  cases source with
  | nmi | irq | brk => exact pushed.toNotesWrap.thenKeeps ⟨rfl, rfl⟩

end Cpu

def Action.stackMove : Action → WrapKind × Nat
  | push _ => (.overflow, 1)
  | call => (.overflow, 2)
  | softwareInterrupt => (.overflow, 3)
  | pull _ => (.underflow, 1)
  | subroutineReturn => (.underflow, 2)
  | interruptReturn => (.underflow, 3)
  | read _ | write _ | modify _ | internal _ | branch _ | jump => (.overflow, 0)

theorem Action.perform_notes {β : Type} [Bus β] (action : Action) (place : Place) (cpu : Cpu β) :
    Cpu.NotesWrap action.stackMove.1 action.stackMove.2 cpu (action.perform place cpu) := by
  cases action with
  | read use =>
      have loaded := (cpu.load_keepsWraps place).thenRegisters fun registers =>
        use registers (cpu.load place).1
      exact loaded.notes .overflow
  | write source => exact (cpu.store_keepsWraps place (source cpu.registers)).notes .overflow
  | modify transform =>
      simp only [perform]
      exact (((cpu.load_keepsWraps place).trans
        (Cpu.store_keepsWraps _ place _)).thenRegisters _).notes .overflow
  | internal update => exact ((Cpu.KeepsWraps.refl cpu).thenRegisters update).notes .overflow
  | branch condition =>
      simp only [perform]
      split
      · exact (Cpu.follow_keepsWraps place cpu).notes .overflow
      · exact (Cpu.KeepsWraps.refl cpu).notes .overflow
  | jump => exact (Cpu.follow_keepsWraps place cpu).notes .overflow
  | push source => exact (cpu.pushByte_moves (source cpu.registers)).toNotesWrap
  | call =>
      have pushed := cpu.pushWord_moves (cpu.registers.programCounter - 1)
      exact pushed.toNotesWrap.thenKeeps (Cpu.follow_keepsWraps place _)
  | pull use =>
      exact cpu.pullByte_moves.toNotesWrap.thenRegisters fun registers =>
        use registers cpu.pullByte.1
  | subroutineReturn =>
      exact cpu.pullWord_moves.toNotesWrap.thenRegisters fun registers =>
        { registers with programCounter := cpu.pullWord.1 + 1 }
  | interruptReturn =>
      simp only [perform]
      -- Restoring the status comes between the pulls, and leaves the stack pointer where it is.
      have first := cpu.pullByte_moves
      have restored : Cpu.MovesStack .underflow 1 cpu
          (cpu.pullByte.2.mapRegisters fun registers =>
            registers.restoreStatus cpu.pullByte.1) :=
        ⟨first.toNotesWrap.thenRegisters _, first.room, first.origin⟩
      have pulled := restored.trans (Cpu.pullWord_moves _) (by decide)
      exact pulled.toNotesWrap.thenRegisters _
  | softwareInterrupt =>
      have entered := (cpu.jumpTo (cpu.registers.programCounter + 1)).enterInterrupt_notes .brk
      exact ⟨entered.stackWraps, entered.lastStackWrap⟩

theorem Mnemonic.stackMove_eq (mnemonic : Mnemonic) : mnemonic.action.stackMove =
    if mnemonic.pulledBytes = 0 then (.overflow, mnemonic.pushedBytes)
    else (.underflow, mnemonic.pulledBytes) := by
  cases mnemonic <;> rfl

theorem Mnemonic.pushedBytes_eq_zero (mnemonic : Mnemonic) (pulls : 0 < mnemonic.pulledBytes) :
    mnemonic.pushedBytes = 0 := by
  cases mnemonic with
  | pla | plp | rts | rti => rfl
  | _ => simp [pulledBytes] at pulls

namespace StepRecord

/-- How many bytes a step has pushed; an interrupt entry pushes the program counter and the
status. -/
def pushedBytes : StepRecord → Nat
  | executed instruction => instruction.mnemonic.pushedBytes
  | interrupt _ => 3
  | nothing | halted => 0

def pulledBytes : StepRecord → Nat
  | executed instruction => instruction.mnemonic.pulledBytes
  | nothing | interrupt _ | halted => 0

end StepRecord

namespace Cpu

variable {β : Type}

structure Wrapped (kind : WrapKind) (before after : Cpu β) : Prop where
  stackWraps : after.stackWraps = before.stackWraps + 1
  lastStackWrap : after.lastStackWrap =
    some ⟨kind, ⟨before.registers.programCounter, before.counters.cycles⟩⟩

theorem NotesWrap.wrapped {kind : WrapKind} {count : Nat} {cpu after : Cpu β}
    (notes : NotesWrap kind count cpu.begin after)
    (few : kind.room cpu.registers.stackPointer < count) : Wrapped kind cpu after where
  stackWraps := notes.stackWraps.trans (congrArg (cpu.stackWraps + ·) (if_pos few))
  lastStackWrap := notes.lastStackWrap.trans (if_pos few)

theorem NotesWrap.keeps {kind : WrapKind} {count : Nat} {cpu after : Cpu β}
    (notes : NotesWrap kind count cpu.begin after)
    (enough : count ≤ kind.room cpu.registers.stackPointer) : KeepsWraps cpu after where
  stackWraps :=
    notes.stackWraps.trans (congrArg (cpu.stackWraps + ·) (if_neg (Nat.not_lt.mpr enough)))
  lastStackWrap := notes.lastStackWrap.trans (if_neg (Nat.not_lt.mpr enough))

variable [Bus β]

theorem settle_keepsWraps (cpu : Cpu β) (cycles : Nat) :
    KeepsWraps cpu (cpu.settle cycles).2 := by
  simp only [settle]
  split <;> exact ⟨rfl, rfl⟩

theorem executeInstruction_notes (cpu : Cpu β) :
    NotesWrap (Opcode.ofByte cpu.opcodeByte).mnemonic.action.stackMove.1
      (Opcode.ofByte cpu.opcodeByte).mnemonic.action.stackMove.2 cpu cpu.executeInstruction := by
  have performed := Action.perform_notes (Opcode.ofByte cpu.opcodeByte).mnemonic.action
    cpu.nextOperand.place (cpu.jumpTo (cpu.registers.programCounter +
      UInt16.ofNat (Opcode.ofByte cpu.opcodeByte).size))
  exact ⟨performed.stackWraps, performed.lastStackWrap⟩

def nextMnemonic (cpu : Cpu β) : Mnemonic :=
  (Opcode.ofByte (Bus.read cpu.memory cpu.registers.programCounter)).mnemonic

/-- How many bytes the next step pushes: three to enter an interrupt, or else as many as its
instruction pushes. An opcode that is not documented pushes none. -/
def nextPushes (cpu : Cpu β) : Nat :=
  if cpu.halted then 0
  else if cpu.dueInterrupt.isSome then 3
  else cpu.nextMnemonic.pushedBytes

def nextPulls (cpu : Cpu β) : Nat :=
  if cpu.halted || cpu.dueInterrupt.isSome then 0 else cpu.nextMnemonic.pulledBytes

def nextStackMove (cpu : Cpu β) : WrapKind × Nat :=
  if cpu.nextPulls = 0 then (.overflow, cpu.nextPushes) else (.underflow, cpu.nextPulls)

theorem nextPushes_eq_zero {cpu : Cpu β} (pulls : 0 < cpu.nextPulls) : cpu.nextPushes = 0 := by
  simp only [nextPulls] at pulls
  split at pulls
  · omega
  · rename_i executes
    rw [Bool.or_eq_true, not_or] at executes
    rw [nextPushes, if_neg executes.1, if_neg executes.2]
    exact cpu.nextMnemonic.pushedBytes_eq_zero pulls

theorem pushedBytes_of_illegal {cpu : Cpu β} (illegal : cpu.meetsIllegalOpcode = true) :
    cpu.nextMnemonic.pushedBytes = 0 ∧ cpu.nextMnemonic.pulledBytes = 0 := by
  have unknown : cpu.nextMnemonic = .illegal := by
    rw [meetsIllegalOpcode, Bool.and_eq_true, Opcode.isIllegal, beq_iff_eq] at illegal
    exact illegal.1
  rw [unknown]
  exact ⟨rfl, rfl⟩

/-- What the next step moves over the stack can be told before it is taken, and it is what the step
has moved by its own record. -/
theorem step_notes (cpu : Cpu β) :
    NotesWrap cpu.nextStackMove.1 cpu.nextStackMove.2 cpu.begin cpu.step.2 ∧
      cpu.step.2.lastStep.pushedBytes = cpu.nextPushes ∧
      cpu.step.2.lastStep.pulledBytes = cpu.nextPulls := by
  rcases cpu.step_cases with ⟨halted, stepped⟩ | ⟨source, running, due, stepped⟩ |
    ⟨running, free, illegal, stepped⟩ | ⟨running, free, _, stepped⟩
  · have keeps : KeepsWraps cpu.begin { cpu.begin with lastStep := .halted } := ⟨rfl, rfl⟩
    simp only [nextStackMove, nextPushes, nextPulls, halted, stepped]
    exact ⟨keeps.notes .overflow, rfl, rfl⟩
  · have last : cpu.step.2.lastStep = .interrupt source := by
      rw [stepped, settle_lastStep]
      rfl
    have entered := cpu.begin.enterInterrupt_notes source
    -- Nothing after the entry touches the stack.
    have serviced : NotesWrap .overflow 3 cpu.begin (cpu.begin.serviceInterrupt source) :=
      entered.thenKeeps ⟨rfl, rfl⟩
    simp only [nextStackMove, nextPushes, nextPulls, running, due, last]
    exact ⟨stepped ▸ serviced.thenKeeps (settle_keepsWraps _ _), rfl, rfl⟩
  · have keeps : KeepsWraps cpu.begin { cpu.begin with halted := true, lastStep := .halted } :=
      ⟨rfl, rfl⟩
    obtain ⟨noPush, noPull⟩ := pushedBytes_of_illegal illegal
    simp only [nextStackMove, nextPushes, nextPulls, running, free, noPush, noPull, stepped]
    exact ⟨keeps.notes .overflow, rfl, rfl⟩
  · have last : cpu.step.2.lastStep = .executed cpu.nextInstruction := by
      rw [stepped, settle_lastStep]
      rfl
    have executed := cpu.begin.executeInstruction_notes.thenKeeps
      (settle_keepsWraps _ cpu.nextInstruction.cycles)
    rw [Mnemonic.stackMove_eq] at executed
    simp only [nextStackMove, nextPushes, nextPulls, running, free, last]
    exact ⟨stepped ▸ executed, rfl, rfl⟩

/-- What a step adds to the diagnostics of the stack, told from the processor before it. -/
structure TellsWraps (before after : Cpu β) : Prop where
  pushes : 0 < before.nextPushes →
    if before.registers.stackPointer.toNat < before.nextPushes then
      Wrapped .overflow before after
    else KeepsWraps before after
  pulls : 0 < before.nextPulls →
    if 0xFF < before.registers.stackPointer.toNat + before.nextPulls then
      Wrapped .underflow before after
    else KeepsWraps before after
  others : before.nextPushes = 0 → before.nextPulls = 0 → KeepsWraps before after
  pushed : after.lastStep.pushedBytes = before.nextPushes
  pulled : after.lastStep.pulledBytes = before.nextPulls
  decoded : ∀ executed, after.lastStep = .executed executed →
    executed.mnemonic = before.nextMnemonic

/-- Every step tells exactly of the wrap that it makes, and it makes one at most. -/
theorem step_wraps_exact (cpu : Cpu β) : cpu.TellsWraps cpu.step.2 := by
  obtain ⟨notes, pushed, pulled⟩ := cpu.step_notes
  refine ⟨?_, ?_, ?_, pushed, pulled, ?_⟩
  · intro pushes
    -- A step that pushes does not pull, so that the move goes in one direction.
    have noPull : cpu.nextPulls = 0 := by
      have exclusive := @nextPushes_eq_zero _ _ cpu
      omega
    rw [nextStackMove, if_pos noPull] at notes
    split
    · rename_i few
      exact notes.wrapped few
    · rename_i enough
      exact notes.keeps (Nat.not_lt.mp enough)
  · intro pulls
    rw [nextStackMove, if_neg (by omega)] at notes
    split
    · rename_i few
      exact notes.wrapped (by simp only [WrapKind.room]; omega)
    · rename_i enough
      exact notes.keeps (by simp only [WrapKind.room]; omega)
  · intro noPush noPull
    rw [nextStackMove, if_pos noPull, noPush] at notes
    exact notes.keeps (Nat.zero_le _)
  · intro executed last
    exact (executes_of_lastStep last).mnemonic_eq

def atPageEnd : Cpu FlatMemory :=
  { memory := FlatMemory.zeroed.loadAll [(0x0200, [0x20, 0x00, 0x03]), (0x0300, [0x60])]
    registers := { programCounter := 0x0200, stackPointer := 0x00 } }

theorem atPageEnd_wraps :
    (atPageEnd.nextPushes = 2 ∧ Wrapped .overflow atPageEnd atPageEnd.step.2) ∧
      (atPageEnd.step.2.nextPulls = 2 ∧
        Wrapped .underflow atPageEnd.step.2 atPageEnd.step.2.step.2) ∧
      (atPageEnd.after 2).stackWraps = 2 ∧
      (atPageEnd.after 2).lastStackWrap = some ⟨.underflow, ⟨0x0300, 6⟩⟩ := by
  have pushes : atPageEnd.nextPushes = 2 := by decide +kernel
  have pulls : atPageEnd.step.2.nextPulls = 2 := by decide +kernel
  have called := (step_wraps_exact atPageEnd).pushes (by rw [pushes]; decide)
  have returned := (step_wraps_exact atPageEnd.step.2).pulls (by rw [pulls]; decide)
  rw [if_pos (by decide +kernel)] at called returned
  refine ⟨⟨pushes, called⟩, ⟨pulls, returned⟩, ?_, ?_⟩
  · exact returned.stackWraps.trans (congrArg (· + 1) called.stackWraps)
  · refine returned.lastStackWrap.trans ?_
    decide +kernel

end Cpu

end Nmos6502
