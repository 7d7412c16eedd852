import Nmos6502.Cpu.Step

/-!
Steps until a budget of cycles is used up, the processor halts, or a step fails.
-/

namespace Nmos6502.Cpu

variable {β : Type} [Bus β]

theorem settle_eq_ok (cpu final : Cpu β) (cycles consumed : Nat)
    (settled : cpu.settle cycles = (.ok consumed, final)) : consumed = cycles ∧ final = cpu := by
  simp only [settle] at settled
  split at settled
  · simp at settled
  · simp only [Prod.mk.injEq, Except.ok.injEq] at settled
    exact ⟨settled.1.symm, settled.2.symm⟩

theorem step_cycles_pos (cpu after : Cpu β) (consumed : Nat) (running : cpu.halted = false)
    (stepped : cpu.step = (.ok consumed, after)) : 0 < consumed := by
  simp only [step, running, Bool.false_eq_true, if_false] at stepped
  split at stepped
  · rw [(settle_eq_ok _ _ _ _ stepped).1]
    decide
  · split at stepped
    · simp at stepped
    · rw [(settle_eq_ok _ _ _ _ stepped).1]
      have bounds := Opcode.cycles_bounds cpu.opcodeByte
      simp only [nextInstruction, instructionCycles]
      omega

def executeFrom (cpu : Cpu β) (budget consumed : Nat) : Except StepError Nat × Cpu β :=
  if running : consumed < budget ∧ cpu.halted = false then
    match stepped : cpu.step with
    | (.error error, after) => (.error error, after)
    | (.ok cycles, after) =>
        have := step_cycles_pos cpu after cycles running.2 stepped
        after.executeFrom budget (consumed + cycles)
  else (.ok consumed, cpu)
termination_by budget - consumed

theorem executeFrom_stop (cpu : Cpu β) {budget consumed : Nat}
    (stop : budget ≤ consumed ∨ cpu.halted = true) :
    cpu.executeFrom budget consumed = (.ok consumed, cpu) := by
  have stopped : ¬(consumed < budget ∧ cpu.halted = false) := by
    rintro ⟨left, running⟩
    rcases stop with exhausted | halted
    · omega
    · simp [running] at halted
  rw [executeFrom, dif_neg stopped]

theorem executeFrom_fail {cpu after : Cpu β} {budget consumed : Nat} {error : StepError}
    (left : consumed < budget) (running : cpu.halted = false)
    (stepped : cpu.step = (.error error, after)) :
    cpu.executeFrom budget consumed = (.error error, after) := by
  rw [executeFrom, dif_pos ⟨left, running⟩]
  split
  · simp_all
  · simp_all

theorem executeFrom_step {cpu after : Cpu β} {budget consumed cycles : Nat}
    (left : consumed < budget) (running : cpu.halted = false)
    (stepped : cpu.step = (.ok cycles, after)) :
    cpu.executeFrom budget consumed = after.executeFrom budget (consumed + cycles) := by
  rw [executeFrom, dif_pos ⟨left, running⟩]
  split
  · simp_all
  · simp_all

/-- The cycles used up may exceed the budget by part of the last step. -/
def execute (cpu : Cpu β) (budget : Nat) : Except StepError Nat × Cpu β :=
  cpu.executeFrom budget 0

end Nmos6502.Cpu
