import Nmos6502.Device.Storage
import Nmos6502.Memory.Mapped
import Nmos6502.Proofs.InstructionCost

/-!
The counters of a processor against what its steps have done since the last reset. Every
executed instruction is charged its price and every interrupt seven cycles, whether or not the
bus finds fault with the step, and nothing else is charged.
-/

namespace Nmos6502

namespace StepRecord

def executed? : StepRecord → Option ExecutedInstruction
  | executed instruction => some instruction
  | nothing | interrupt _ | halted => none

def isInterrupt : StepRecord → Bool
  | interrupt _ => true
  | nothing | executed _ | halted => false

end StepRecord

def ExecutedInstruction.totalCycles (instructions : List ExecutedInstruction) : Nat :=
  instructions.foldr (fun instruction total => instruction.cycles + total) 0

theorem ExecutedInstruction.totalCycles_append (first rest : List ExecutedInstruction) :
    totalCycles (first ++ rest) = totalCycles first + totalCycles rest := by
  induction first with
  | nil => rw [List.nil_append, totalCycles, totalCycles, List.foldr_nil, Nat.zero_add]
  | cons instruction first ih =>
      rw [List.cons_append]
      simp only [totalCycles, List.foldr_cons] at ih ⊢
      omega

namespace Counters

def charge (counters : Counters) : StepRecord → Counters
  | .executed instruction => ⟨counters.cycles + instruction.cycles, counters.instructions + 1⟩
  | .interrupt _ => { counters with cycles := counters.cycles + 7 }
  | .nothing | .halted => counters

structure Accounts (counters : Counters) (records : List StepRecord) : Prop where
  cycles : counters.cycles =
    ExecutedInstruction.totalCycles (records.filterMap StepRecord.executed?) +
      7 * records.countP StepRecord.isInterrupt
  instructions : counters.instructions = (records.filterMap StepRecord.executed?).length
  sequence : (records.filterMap StepRecord.executed?).map ExecutedInstruction.sequence =
    List.range' 1 counters.instructions

theorem accounts_nil : Accounts {} [] :=
  ⟨rfl, rfl, rfl⟩

theorem Accounts.charge {counters : Counters} {records : List StepRecord}
    (accounts : Accounts counters records) {record : StepRecord}
    (next : ∀ instruction, record = .executed instruction →
      instruction.sequence = counters.instructions + 1) :
    Accounts (counters.charge record) (records ++ [record]) := by
  obtain ⟨cycles, instructions, sequence⟩ := accounts
  -- Only an instruction takes a number, and an interrupt is charged without one.
  cases record with
  | executed instruction =>
      have number := next instruction rfl
      have more : (records ++ [StepRecord.executed instruction]).filterMap StepRecord.executed? =
          records.filterMap StepRecord.executed? ++ [instruction] :=
        List.filterMap_append
      constructor
      · rw [more, ExecutedInstruction.totalCycles_append, List.countP_append]
        have once : ExecutedInstruction.totalCycles [instruction] = instruction.cycles := rfl
        have none : [StepRecord.executed instruction].countP StepRecord.isInterrupt = 0 := rfl
        simp only [Counters.charge]
        omega
      · rw [more, List.length_append, List.length_singleton, ← instructions]
        rfl
      · rw [more, List.map_append, sequence, List.map_singleton, number, Counters.charge,
          List.range'_concat, Nat.one_mul, Nat.add_comm 1]
  | interrupt source =>
      have same : (records ++ [StepRecord.interrupt source]).filterMap StepRecord.executed? =
          records.filterMap StepRecord.executed? :=
        List.filterMap_append.trans (List.append_nil _)
      constructor
      · rw [same, List.countP_append]
        have once : [StepRecord.interrupt source].countP StepRecord.isInterrupt = 1 := rfl
        simp only [Counters.charge]
        omega
      · rw [same]
        exact instructions
      · rw [same]
        exact sequence
  | nothing | halted =>
      have same (idle : StepRecord) (silent : idle.executed? = none) :
          (records ++ [idle]).filterMap StepRecord.executed? =
            records.filterMap StepRecord.executed? := by
        simp [List.filterMap_append, silent]
      constructor
      · rw [same _ rfl, List.countP_append]
        exact cycles
      · rw [same _ rfl]
        exact instructions
      · rw [same _ rfl]
        exact sequence

end Counters

namespace Cpu

variable {β : Type} [Bus β]

theorem settle_counters (cpu : Cpu β) (cycles : Nat) :
    (cpu.settle cycles).2.counters = cpu.counters := by
  simp only [settle]
  split <;> rfl

theorem step_counters (cpu : Cpu β) :
    cpu.step.2.counters = cpu.counters.charge cpu.step.2.lastStep := by
  rcases cpu.step_cases with ⟨_, stepped⟩ | ⟨source, _, _, stepped⟩ | ⟨_, _, _, stepped⟩ |
    ⟨_, _, _, stepped⟩
  · rw [stepped]
    rfl
  · have entered : (cpu.begin.enterInterrupt source).counters = cpu.counters := by
      rw [(cpu.begin.enterInterrupt_undisturbed source).counters]
      cases source <;> rfl
    rw [stepped, settle_counters, settle_lastStep]
    simp only [serviceInterrupt, Counters.charge, entered]
    rfl
  · rw [stepped]
    rfl
  · have performed := ((cpu.begin.jumpTo_undisturbed _).trans
      (perform_undisturbed (Opcode.ofByte cpu.opcodeByte).mnemonic.action cpu.nextOperand.place
        (cpu.begin.jumpTo cpu.advancedRegisters.programCounter))).counters
    rw [stepped, settle_counters, settle_lastStep]
    exact congrArg (fun counters : Counters =>
      (⟨counters.cycles + cpu.nextInstruction.cycles, cpu.counters.instructions + 1⟩ : Counters))
      performed

theorem step_succeeded {cpu : Cpu β} {cycles : Nat} (succeeded : cpu.step.1 = .ok cycles) :
    cpu.step.2.counters.cycles = cpu.counters.cycles + cycles := by
  have counters := cpu.step_counters
  rcases cpu.step_cases with ⟨_, stepped⟩ | ⟨source, _, _, stepped⟩ | ⟨_, _, _, stepped⟩ |
    ⟨_, _, _, stepped⟩
  · rw [stepped] at succeeded ⊢
    rw [← Except.ok.inj succeeded]
    rfl
  · have last : cpu.step.2.lastStep = .interrupt source := by
      rw [stepped, settle_lastStep]
      rfl
    have used := (settle_eq_ok _ cpu.step.2 _ cycles
      (stepped.symm.trans (Prod.ext succeeded rfl))).1
    rw [counters, last, used]
    rfl
  · simp [stepped] at succeeded
  · have last : cpu.step.2.lastStep = .executed cpu.nextInstruction := by
      rw [stepped, settle_lastStep]
      rfl
    have used := (settle_eq_ok _ cpu.step.2 _ cycles
      (stepped.symm.trans (Prod.ext succeeded rfl))).1
    rw [counters, last, used]
    rfl

theorem step_busFault {cpu : Cpu β} {fault : BusFault}
    (failed : cpu.step.1 = .error (.bus fault)) :
    (∃ instruction, cpu.step.2.lastStep = .executed instruction) ∨
      ∃ source, cpu.step.2.lastStep = .interrupt source := by
  rcases cpu.step_cases with ⟨_, stepped⟩ | ⟨source, _, _, stepped⟩ | ⟨_, _, _, stepped⟩ |
    ⟨_, _, _, stepped⟩
  · simp [stepped] at failed
  · right
    rw [stepped, settle_lastStep]
    exact ⟨source, rfl⟩
  · simp [stepped] at failed
  · left
    rw [stepped, settle_lastStep]
    exact ⟨cpu.nextInstruction, rfl⟩

theorem settle_ne_illegalOpcode (cpu : Cpu β) (cycles : Nat) (opcode : UInt8)
    (address : UInt16) : (cpu.settle cycles).1 ≠ .error (.illegalOpcode opcode address) := by
  simp only [settle]
  split <;> simp

theorem step_illegalOpcode {cpu : Cpu β} {opcode : UInt8} {address : UInt16}
    (failed : cpu.step.1 = .error (.illegalOpcode opcode address)) :
    cpu.step.2.counters = cpu.counters ∧ cpu.step.2.lastStep = .halted := by
  rcases cpu.step_cases with ⟨_, stepped⟩ | ⟨source, _, _, stepped⟩ | ⟨_, _, _, stepped⟩ |
    ⟨_, _, _, stepped⟩
  · simp [stepped] at failed
  · rw [stepped] at failed
    exact absurd failed (settle_ne_illegalOpcode _ _ opcode address)
  · rw [stepped]
    exact ⟨rfl, rfl⟩
  · rw [stepped] at failed
    exact absurd failed (settle_ne_illegalOpcode _ _ opcode address)

/-- What a step is charged. One that the bus finds fault with is charged like any other, and one
that meets an illegal opcode is not charged. -/
structure Charged (cpu : Cpu β) : Prop where
  counters : cpu.step.2.counters = cpu.counters.charge cpu.step.2.lastStep
  executed : ∀ instruction, cpu.step.2.lastStep = .executed instruction →
    instruction.sequence = cpu.counters.instructions + 1 ∧ cpu.Priced instruction
  succeeded : ∀ cycles, cpu.step.1 = .ok cycles →
    cpu.step.2.counters.cycles = cpu.counters.cycles + cycles
  busFault : ∀ fault, cpu.step.1 = .error (.bus fault) →
    (∃ instruction, cpu.step.2.lastStep = .executed instruction) ∨
      ∃ source, cpu.step.2.lastStep = .interrupt source
  illegalOpcode : ∀ opcode address, cpu.step.1 = .error (.illegalOpcode opcode address) →
    cpu.step.2.counters = cpu.counters ∧ cpu.step.2.lastStep = .halted

theorem charged (cpu : Cpu β) : cpu.Charged := by
  refine ⟨cpu.step_counters, fun instruction last => ?_, fun _ => step_succeeded,
    fun _ => step_busFault, fun _ _ => step_illegalOpcode⟩
  have executes := executes_of_lastStep last
  refine ⟨?_, executes.priced⟩
  rw [executes.instruction]
  rfl

/-! The steps of a whole dialogue. -/

def starts (cpu : Cpu β) : Nat → List (Cpu β)
  | 0 => []
  | count + 1 => cpu :: cpu.step.2.starts count

def stepCount (cpu : Cpu β) : Operation → Nat
  | .step => 1
  | .execute budget => (cpu.stepsFrom budget 0).length
  | _ => 0

def startsIn (cpu : Cpu β) (operations : List Operation) : List (Cpu β) :=
  Dialogue.gather carryOut (fun reached operation => reached.starts (reached.stepCount operation))
    cpu operations

def outcomeOf (started : Cpu β) : StepRecord :=
  started.step.2.lastStep

theorem carryOut_counters (cpu : Cpu β) {operation : Operation} (kept : operation ≠ .reset) :
    (cpu.carryOut operation).2.counters = (cpu.after (cpu.stepCount operation)).counters := by
  cases operation with
  | reset => exact absurd rfl kept
  | execute budget => exact congrArg Cpu.counters (cpu.executeFrom_after budget 0)
  | read address => exact (cpu.read_undisturbed address).counters
  | write address value => exact (cpu.write_undisturbed address value).counters
  | push value => exact (cpu.pushByte_undisturbed value).counters
  | pull => exact cpu.pullByte_undisturbed.counters
  | pushWord value => exact (cpu.pushWord_undisturbed value).counters
  | pullWord => exact cpu.pullWord_undisturbed.counters
  | step | requestIrq | withdrawIrq | requestNmi | setRegisters update | configure config
  | readBus address | writeBus address value | peekBus address | resetBus | takeFault
  | senseLine => rfl

theorem accounts_after {cpu : Cpu β} {records : List StepRecord}
    (accounts : cpu.counters.Accounts records) (count : Nat) :
    (cpu.after count).counters.Accounts (records ++ (cpu.starts count).map outcomeOf) := by
  induction count generalizing cpu records with
  | zero => simpa [after, starts] using accounts
  | succ count ih =>
      have charged := cpu.charged
      have stepped : cpu.step.2.counters.Accounts (records ++ [cpu.outcomeOf]) := by
        rw [charged.counters]
        exact accounts.charge fun instruction last => (charged.executed instruction last).1
      simpa [after, starts] using ih stepped

theorem accounts_carryOutAll {cpu : Cpu β} {records : List StepRecord}
    (accounts : cpu.counters.Accounts records) {operations : List Operation}
    (kept : ∀ operation ∈ operations, operation ≠ .reset) :
    (cpu.carryOutAll operations).2.counters.Accounts
      (records ++ (cpu.startsIn operations).map outcomeOf) := by
  induction operations generalizing cpu records with
  | nil => simpa [carryOutAll, Dialogue.run, startsIn, Dialogue.gather] using accounts
  | cons operation rest ih =>
      rw [List.forall_mem_cons] at kept
      have carried : (cpu.carryOut operation).2.counters.Accounts
          (records ++ (cpu.starts (cpu.stepCount operation)).map outcomeOf) := by
        rw [cpu.carryOut_counters kept.1]
        exact accounts_after accounts _
      have finished := ih carried kept.2
      rw [List.append_assoc, ← List.map_append] at finished
      exact finished

/-- Whatever is done with a processor after a reset, its counters tell the cycles and the number
of what its steps have executed and entered since, and each step was charged what it cost. -/
theorem counters_accounted (cpu : Cpu β) (operations : List Operation)
    (kept : ∀ operation ∈ operations, operation ≠ .reset) :
    (cpu.reset.carryOutAll operations).2.counters.Accounts
        ((cpu.reset.startsIn operations).map outcomeOf) ∧
      ∀ started ∈ cpu.reset.startsIn operations, started.Charged := by
  have nothing : cpu.reset.counters.Accounts [] := Counters.accounts_nil
  exact ⟨accounts_carryOutAll nothing kept, fun started _ => started.charged⟩

/-- Strict memory with half a kilobyte of RAM and nothing else. Its program stores to where there
is nothing, loads over the end of a page, and ends in an illegal opcode. -/
def overrunning : Cpu (MappedMemory Ram) :=
  { memory :=
      { mappings := [⟨0x0000, 0x0200,
          (Ram.zeroed 0x200).loadAll [(0x0000, [0x8D, 0x00, 0x03, 0xBD, 0xFF, 0x00, 0x02])]⟩]
        strictWrites := true }
    registers := { x := 1 } }

def overrun : List Operation :=
  [.requestNmi, .step, .setRegisters fun registers => { registers with programCounter := 0 },
    .step, .step, .step, .step]

theorem overrunning_accounted :
    (overrunning.reset.carryOutAll overrun).2.counters = ⟨16, 2⟩ ∧
      (overrunning.reset.carryOutAll overrun).2.halted = true ∧
      (overrunning.reset.startsIn overrun).length = 5 ∧
      (overrunning.reset.carryOutAll overrun).2.counters.Accounts
        ((overrunning.reset.startsIn overrun).map outcomeOf) :=
  ⟨by decide +kernel, by decide +kernel, by decide +kernel,
    (counters_accounted overrunning overrun (by simp [overrun])).1⟩

end Cpu

end Nmos6502
