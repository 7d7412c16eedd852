import Nmos6502.Proofs.AlikeSteps
import Nmos6502.Proofs.StepLog

/-!
Which step a fault of the bus is blamed on. A step that finds the bus without a fault reports
none but what its own accesses bring about, and leaves the bus without one.
-/

namespace Nmos6502.Cpu

variable {β γ : Type} [Bus β] [Bus γ]

def verdict (cpu : Cpu β) : Except StepError Nat :=
  if cpu.halted then .ok 0
  else
    match cpu.dueInterrupt with
    | some _ => .ok Interrupt.cycles
    | none =>
        if cpu.meetsIllegalOpcode then
          .error (.illegalOpcode cpu.opcodeByte cpu.registers.programCounter)
        else .ok cpu.nextInstruction.cycles

theorem verdict_ne_bus (cpu : Cpu β) (fault : BusFault) : cpu.verdict ≠ .error (.bus fault) := by
  simp only [verdict]
  split
  · simp
  · split
    · simp
    · split <;> simp

theorem Alike.verdict {Same : β → γ → Prop} {Stamp : Origin → Origin → Prop} {left : Cpu β}
    {right : Cpu γ} (alike : Alike Same Stamp left right) (mirrors : Bus.Mirrors Same) :
    left.verdict = right.verdict := by
  simp only [Cpu.verdict, alike.halted, alike.dueInterrupt mirrors,
    alike.meetsIllegalOpcode mirrors, alike.opcodeByte mirrors, alike.registers,
    alike.nextInstruction mirrors]

def blame (verdict : Except StepError Nat) : Option BusFault → Except StepError Nat
  | some fault => .error (.bus fault)
  | none => verdict

theorem exists_blame_iff {verdict : Except StepError Nat}
    (innocent : ∀ fault, verdict ≠ .error (.bus fault)) (found : Option BusFault) :
    (∃ fault, blame verdict found = .error (.bus fault)) ↔ found.isSome = true := by
  cases found with
  | none => simpa [blame] using innocent
  | some fault => simp [blame]

theorem settle_eq (cpu : Cpu β) (cycles : Nat) :
    cpu.settle cycles =
      (blame (.ok cycles) (Bus.fault cpu.memory), { cpu with memory := settledMemory cpu.memory }) := by
  simp only [settle, settledMemory]
  split <;> simp_all [blame]

/-- A step that begins without a fault reports the one that its own accesses have left, and
takes it from the bus. -/
theorem step_blames (cpu : Cpu β) (clear : Bus.fault cpu.memory = none) :
    cpu.step.1 = blame cpu.verdict (Bus.fault (Access.replay cpu.memory cpu.stepAccesses)) ∧
      cpu.step.2.memory = settledMemory (Access.replay cpu.memory cpu.stepAccesses) := by
  have idle : settledMemory cpu.memory = cpu.memory := by simp [settledMemory, clear]
  rcases cpu.step_cases with ⟨halted, stepped⟩ | ⟨source, running, due, stepped⟩ |
    ⟨running, due, illegal, stepped⟩ | ⟨running, due, legal, stepped⟩
  · simp [stepped, verdict, stepAccesses, halted, Access.replay, clear, idle, blame, begin]
  · have logged := (serviceInterrupt_logged cpu.begin source).memory
    simp only [stepped, settle_eq, logged, verdict, stepAccesses, running, due]
    exact ⟨rfl, rfl⟩
  · simp [stepped, verdict, stepAccesses, running, due, illegal, Access.replay, clear, idle, blame,
      begin]
  · have logged := (executeInstruction_logged cpu.begin).memory
    simp only [stepped, settle_eq, logged, verdict, stepAccesses, running, due, legal]
    exact ⟨rfl, rfl⟩

end Nmos6502.Cpu
