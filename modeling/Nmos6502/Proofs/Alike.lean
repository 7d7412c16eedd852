import Nmos6502.Cpu.Execute
import Nmos6502.Proofs.AccessLog

/-!
Processors on two buses that read alike and take writes alike. Whatever one of them does the
other does too, up to what a step asks of the bus at its end.
-/

namespace Nmos6502

/-- Buses that a relation ties answer reads alike and pull the interrupt line alike, and
writes keep them tied. -/
structure Bus.Mirrors {β γ : Type} [Bus β] [Bus γ] (Same : β → γ → Prop) : Prop where
  read : ∀ {left right}, Same left right → ∀ address,
    Bus.read left address = Bus.read right address
  write : ∀ {left right}, Same left right → ∀ address value,
    Same (Bus.write left address value) (Bus.write right address value)
  interruptLine : ∀ {left right}, Same left right →
    Bus.interruptLine left = Bus.interruptLine right

def StackWrap.Alike (Stamp : Origin → Origin → Prop) (left right : StackWrap) : Prop :=
  left.kind = right.kind ∧ Stamp left.origin right.origin

theorem StackWrap.rel_alike_eq_iff (first second : Option StackWrap) :
    Option.Rel (StackWrap.Alike Eq) first second ↔ first = second := by
  rcases first with _ | ⟨kind, origin⟩ <;> rcases second with _ | ⟨otherKind, otherOrigin⟩ <;>
    simp [StackWrap.Alike]

namespace Cpu

variable {β γ : Type}

/-- Processors that differ in nothing but related memories and related stamps. -/
structure Alike (Same : β → γ → Prop) (Stamp : Origin → Origin → Prop) (left : Cpu β)
    (right : Cpu γ) : Prop where
  memory : Same left.memory right.memory
  config : left.config = right.config
  registers : left.registers = right.registers
  counters : left.counters = right.counters
  halted : left.halted = right.halted
  nmiRequested : left.nmiRequested = right.nmiRequested
  irqRequested : left.irqRequested = right.irqRequested
  stackWraps : left.stackWraps = right.stackWraps
  lastStackWrap : Option.Rel (StackWrap.Alike Stamp) left.lastStackWrap right.lastStackWrap
  origin : Stamp left.origin right.origin
  lastStep : left.lastStep = right.lastStep
  lastInstruction : left.lastInstruction = right.lastInstruction
  accesses : left.accesses = right.accesses

def onto (cpu : Cpu β) (memory : γ) : Cpu γ :=
  { cpu with memory }

namespace Alike

theorem onto_eq {Same : β → γ → Prop} {left : Cpu β} {right : Cpu γ}
    (alike : Alike Same Eq left right) : left.onto right.memory = right := by
  have sameWrap := (StackWrap.rel_alike_eq_iff _ _).mp alike.lastStackWrap
  cases left
  cases right
  simp only [onto, mk.injEq, true_and]
  exact ⟨alike.config, alike.registers, alike.counters, alike.halted, alike.nmiRequested,
    alike.irqRequested, alike.stackWraps, sameWrap, alike.origin, alike.lastStep,
    alike.lastInstruction, alike.accesses⟩

theorem of_onto {Same : β → γ → Prop} {left : Cpu β} {memory : γ}
    (same : Same left.memory memory) : Alike Same Eq left (left.onto memory) where
  memory := same
  config := rfl
  registers := rfl
  counters := rfl
  halted := rfl
  nmiRequested := rfl
  irqRequested := rfl
  stackWraps := rfl
  lastStackWrap := (StackWrap.rel_alike_eq_iff _ _).mpr rfl
  origin := rfl
  lastStep := rfl
  lastInstruction := rfl
  accesses := rfl

theorem eq {left right : Cpu β} (alike : Alike Eq Eq left right) : left = right := by
  have moved := alike.onto_eq
  rwa [← alike.memory] at moved

variable {Same : β → γ → Prop} {Stamp : Origin → Origin → Prop} {left : Cpu β} {right : Cpu γ}

theorem noWrap_eq (alike : Alike Same Stamp left right) (never : left.lastStackWrap = none) :
    left.lastStackWrap = right.lastStackWrap := by
  have wraps := alike.lastStackWrap
  rcases found : right.lastStackWrap with _ | wrap
  · exact never
  · rw [never, found] at wraps
    cases wraps

theorem mapRegisters (alike : Alike Same Stamp left right) (update : Registers → Registers) :
    Alike Same Stamp (left.mapRegisters update) (right.mapRegisters update) :=
  { alike with registers := congrArg update alike.registers }

theorem jumpTo (alike : Alike Same Stamp left right) (address : UInt16) :
    Alike Same Stamp (left.jumpTo address) (right.jumpTo address) :=
  alike.mapRegisters _

theorem setStatus (alike : Alike Same Stamp left right) (status : Status) :
    Alike Same Stamp (left.setStatus status) (right.setStatus status) :=
  alike.mapRegisters _

theorem acknowledge (alike : Alike Same Stamp left right) (source : Interrupt) :
    Alike Same Stamp (left.acknowledge source) (right.acknowledge source) := by
  cases source with
  | nmi => exact { alike with nmiRequested := rfl }
  | irq => exact { alike with irqRequested := rfl }
  | brk => exact alike

theorem follow (alike : Alike Same Stamp left right) (place : Place) :
    Alike Same Stamp (Action.follow place left) (Action.follow place right) := by
  cases place with
  | nowhere | accumulator | constant _ => exact alike
  | cell target => exact alike.jumpTo target

theorem begin (alike : Alike Same Stamp left right) (reflexive : ∀ origin, Stamp origin origin) :
    Alike Same Stamp left.begin right.begin :=
  { alike with
    accesses := rfl
    origin := by
      simp only [Cpu.begin, alike.registers, alike.counters]
      exact reflexive _ }

theorem record (alike : Alike Same Stamp left right) (access : Access) :
    Alike Same Stamp (left.record access) (right.record access) := by
  have sameSwitch := congrArg CpuConfig.recordAccesses alike.config
  rcases recording : right.config.recordAccesses with _ | _
  · simpa [Cpu.record, sameSwitch, recording] using alike
  · simp only [Cpu.record, sameSwitch, recording, if_true]
    exact { alike with accesses := congrArg (· ++ [access]) alike.accesses }

theorem noteStackWrap (alike : Alike Same Stamp left right) (kind : WrapKind) :
    Alike Same Stamp (left.noteStackWrap kind) (right.noteStackWrap kind) :=
  { alike with
    stackWraps := congrArg (· + 1) alike.stackWraps
    lastStackWrap := .some ⟨rfl, alike.origin⟩ }

variable [Bus β] [Bus γ]

theorem read (alike : Alike Same Stamp left right) (mirrors : Bus.Mirrors Same)
    (address : UInt16) :
    (left.read address).1 = (right.read address).1 ∧
      Alike Same Stamp (left.read address).2 (right.read address).2 := by
  have value := mirrors.read alike.memory address
  refine ⟨value, ?_⟩
  simp only [Cpu.read, value]
  exact alike.record _

theorem write (alike : Alike Same Stamp left right) (mirrors : Bus.Mirrors Same)
    (address : UInt16) (value : UInt8) :
    Alike Same Stamp (left.write address value) (right.write address value) := by
  have written : Alike Same Stamp { left with memory := Bus.write left.memory address value }
      { right with memory := Bus.write right.memory address value } :=
    { alike with memory := mirrors.write alike.memory address value }
  exact written.record _

theorem load (alike : Alike Same Stamp left right) (mirrors : Bus.Mirrors Same) (place : Place) :
    (left.load place).1 = (right.load place).1 ∧
      Alike Same Stamp (left.load place).2 (right.load place).2 := by
  cases place with
  | nowhere => exact ⟨rfl, alike⟩
  | accumulator => exact ⟨congrArg Registers.a alike.registers, alike⟩
  | constant value => exact ⟨rfl, alike⟩
  | cell address => exact alike.read mirrors address

theorem store (alike : Alike Same Stamp left right) (mirrors : Bus.Mirrors Same) (place : Place)
    (value : UInt8) : Alike Same Stamp (left.store place value) (right.store place value) := by
  cases place with
  | nowhere | constant _ => exact alike
  | accumulator => exact alike.mapRegisters fun registers => { registers with a := value }
  | cell address => exact alike.write mirrors address value

theorem pushByte (alike : Alike Same Stamp left right) (mirrors : Bus.Mirrors Same)
    (value : UInt8) : Alike Same Stamp (left.pushByte value) (right.pushByte value) := by
  have written := alike.write mirrors (stackAddress left.registers.stackPointer) value
  simp only [Cpu.pushByte, ← alike.registers]
  split
  · exact (written.noteStackWrap .overflow).mapRegisters _
  · exact written.mapRegisters _

theorem pullByte (alike : Alike Same Stamp left right) (mirrors : Bus.Mirrors Same) :
    left.pullByte.1 = right.pullByte.1 ∧
      Alike Same Stamp left.pullByte.2 right.pullByte.2 := by
  simp only [Cpu.pullByte, ← alike.registers]
  split
  · exact ((alike.noteStackWrap .underflow).mapRegisters _).read mirrors _
  · exact (alike.mapRegisters _).read mirrors _

theorem pushWord (alike : Alike Same Stamp left right) (mirrors : Bus.Mirrors Same)
    (value : UInt16) : Alike Same Stamp (left.pushWord value) (right.pushWord value) :=
  (alike.pushByte mirrors (highByte value)).pushByte mirrors (lowByte value)

theorem pullWord (alike : Alike Same Stamp left right) (mirrors : Bus.Mirrors Same) :
    left.pullWord.1 = right.pullWord.1 ∧
      Alike Same Stamp left.pullWord.2 right.pullWord.2 := by
  obtain ⟨low, afterLow⟩ := alike.pullByte mirrors
  obtain ⟨high, afterHigh⟩ := afterLow.pullByte mirrors
  refine ⟨?_, afterHigh⟩
  simp only [Cpu.pullWord, low, high]

theorem readWord (alike : Alike Same Stamp left right) (mirrors : Bus.Mirrors Same)
    (address : UInt16) :
    Operand.readWord left.memory address = Operand.readWord right.memory address := by
  simp only [Operand.readWord, mirrors.read alike.memory]

theorem enterInterrupt (alike : Alike Same Stamp left right) (mirrors : Bus.Mirrors Same)
    (source : Interrupt) :
    Alike Same Stamp (left.enterInterrupt source) (right.enterInterrupt source) := by
  have pushed := (alike.pushWord mirrors left.registers.programCounter).pushByte mirrors
    (interruptStatus left.registers.status source)
  have masked := pushed.setStatus { left.registers.status with interruptDisable := true }
  have handler := masked.readWord mirrors source.vector
  simp only [Cpu.enterInterrupt, ← alike.registers, ← handler]
  exact (masked.jumpTo _).acknowledge source

theorem perform (alike : Alike Same Stamp left right) (mirrors : Bus.Mirrors Same)
    (action : Action) (place : Place) :
    Alike Same Stamp (action.perform place left) (action.perform place right) := by
  cases action with
  | read use =>
      obtain ⟨value, loaded⟩ := alike.load mirrors place
      simp only [Action.perform, value]
      exact loaded.mapRegisters _
  | write source =>
      simp only [Action.perform, ← alike.registers]
      exact alike.store mirrors place _
  | modify transform =>
      obtain ⟨value, loaded⟩ := alike.load mirrors place
      simp only [Action.perform, value, loaded.registers]
      exact (loaded.store mirrors place _).mapRegisters _
  | internal update => exact alike.mapRegisters update
  | branch condition =>
      simp only [Action.perform, ← alike.registers]
      split
      · exact alike.follow place
      · exact alike
  | push source =>
      simp only [Action.perform, ← alike.registers]
      exact alike.pushByte mirrors _
  | pull use =>
      obtain ⟨value, pulled⟩ := alike.pullByte mirrors
      simp only [Action.perform, value]
      exact pulled.mapRegisters _
  | jump => exact alike.follow place
  | call =>
      simp only [Action.perform, ← alike.registers]
      exact (alike.pushWord mirrors _).follow place
  | subroutineReturn =>
      obtain ⟨address, pulled⟩ := alike.pullWord mirrors
      simp only [Action.perform, address]
      exact pulled.jumpTo _
  | interruptReturn =>
      obtain ⟨byte, pulled⟩ := alike.pullByte mirrors
      have restored := pulled.mapRegisters fun registers =>
        registers.restoreStatus left.pullByte.1
      obtain ⟨address, returned⟩ := restored.pullWord mirrors
      simp only [Action.perform, ← byte, address]
      exact returned.jumpTo _
  | softwareInterrupt =>
      simp only [Action.perform, ← alike.registers]
      exact (alike.jumpTo _).enterInterrupt mirrors .brk

theorem resolve (alike : Alike Same Stamp left right) (mirrors : Bus.Mirrors Same)
    (mode : AddressingMode) (registers : Registers) (address : UInt16) :
    Operand.resolve mode registers left.memory address =
      Operand.resolve mode registers right.memory address := by
  simp only [Operand.resolve, Operand.readWord, Operand.readZeroPagePointer,
    Operand.readJumpPointer, mirrors.read alike.memory]

theorem opcodeByte (alike : Alike Same Stamp left right) (mirrors : Bus.Mirrors Same) :
    left.opcodeByte = right.opcodeByte := by
  simp only [Cpu.opcodeByte, ← alike.registers, mirrors.read alike.memory]

theorem nextInstruction (alike : Alike Same Stamp left right) (mirrors : Bus.Mirrors Same) :
    left.nextInstruction = right.nextInstruction := by
  simp only [Cpu.nextInstruction, alike.opcodeByte mirrors, alike.resolve mirrors,
    mirrors.read alike.memory, alike.registers, alike.counters]

theorem irqPending (alike : Alike Same Stamp left right) (mirrors : Bus.Mirrors Same) :
    left.irqPending = right.irqPending := by
  simp only [Cpu.irqPending, alike.irqRequested, mirrors.interruptLine alike.memory]

theorem dueInterrupt (alike : Alike Same Stamp left right) (mirrors : Bus.Mirrors Same) :
    left.dueInterrupt = right.dueInterrupt := by
  rw [Cpu.dueInterrupt, Cpu.dueInterrupt, alike.nmiRequested, alike.registers,
    alike.irqPending mirrors]

theorem meetsIllegalOpcode (alike : Alike Same Stamp left right) (mirrors : Bus.Mirrors Same) :
    left.meetsIllegalOpcode = right.meetsIllegalOpcode := by
  simp only [Cpu.meetsIllegalOpcode, alike.opcodeByte mirrors, alike.config]

theorem serviceInterrupt (alike : Alike Same Stamp left right) (mirrors : Bus.Mirrors Same)
    (source : Interrupt) :
    Alike Same Stamp (left.serviceInterrupt source) (right.serviceInterrupt source) := by
  have entered := alike.enterInterrupt mirrors source
  exact { entered with
    counters := by simp only [Cpu.serviceInterrupt, entered.counters]
    lastStep := rfl }

theorem executeInstruction (alike : Alike Same Stamp left right) (mirrors : Bus.Mirrors Same) :
    Alike Same Stamp left.executeInstruction right.executeInstruction := by
  have performed := (alike.jumpTo (left.registers.programCounter +
    UInt16.ofNat (Opcode.ofByte left.opcodeByte).size)).perform mirrors
      (Opcode.ofByte left.opcodeByte).mnemonic.action
      (Operand.resolve (Opcode.ofByte left.opcodeByte).mode left.registers left.memory
        left.registers.programCounter).place
  have executed := alike.nextInstruction mirrors
  simp only [Cpu.executeInstruction, ← alike.opcodeByte mirrors, ← alike.registers,
    ← alike.resolve mirrors, ← executed]
  exact { performed with
    counters := by simp only [Cpu.retire, performed.counters]
    lastStep := rfl
    lastInstruction := rfl }

end Alike

end Cpu

end Nmos6502
