import Nmos6502.Cpu.Execute

/-!
What a step can do, and the steps that an execution consists of. Each is taken where the one
before it ended, and an execution comes to its end whatever the processor and its bus do.
-/

namespace Nmos6502.Cpu

variable {β : Type} [Bus β]

/-- A step of a halted processor, an interrupt entry, an illegal opcode that halts, or an
instruction. -/
theorem step_cases (cpu : Cpu β) :
    (cpu.halted = true ∧ cpu.step = (.ok 0, { cpu.begin with lastStep := .halted })) ∨
    (∃ source, cpu.halted = false ∧ cpu.dueInterrupt = some source ∧
      cpu.step = (cpu.begin.serviceInterrupt source).settle Interrupt.cycles) ∨
    (cpu.halted = false ∧ cpu.dueInterrupt = none ∧ cpu.meetsIllegalOpcode = true ∧
      cpu.step = (.error (.illegalOpcode cpu.opcodeByte cpu.registers.programCounter),
        { cpu.begin with halted := true, lastStep := .halted })) ∨
    (cpu.halted = false ∧ cpu.dueInterrupt = none ∧ cpu.meetsIllegalOpcode = false ∧
      cpu.step = cpu.begin.executeInstruction.settle cpu.nextInstruction.cycles) := by
  rcases running : cpu.halted with _ | _
  · rcases due : cpu.dueInterrupt with _ | source
    · rcases illegal : cpu.meetsIllegalOpcode with _ | _
      · simp [step, running, due, illegal]
      · simp [step, running, due, illegal]
    · simp [step, running, due]
  · simp [step, running]

abbrev Outcome (β : Type) := Except StepError Nat × Cpu β

def steps (cpu : Cpu β) : Nat → List (Outcome β)
  | 0 => []
  | count + 1 => cpu.step :: cpu.step.2.steps count

def after (cpu : Cpu β) : Nat → Cpu β
  | 0 => cpu
  | count + 1 => cpu.step.2.after count

theorem after_add (cpu : Cpu β) (first second : Nat) :
    cpu.after (first + second) = (cpu.after first).after second := by
  induction first generalizing cpu with
  | zero => rw [Nat.zero_add, after]
  | succ first ih =>
      rw [Nat.add_right_comm]
      exact ih cpu.step.2

def stepsFrom (cpu : Cpu β) (budget consumed : Nat) : List (Outcome β) :=
  if running : consumed < budget ∧ cpu.halted = false then
    match stepped : cpu.step with
    | (.error error, after) => [(.error error, after)]
    | (.ok cycles, after) =>
        have := step_cycles_pos cpu after cycles running.2 stepped
        (.ok cycles, after) :: after.stepsFrom budget (consumed + cycles)
  else []
termination_by budget - consumed

theorem stepsFrom_stop (cpu : Cpu β) {budget consumed : Nat}
    (stop : budget ≤ consumed ∨ cpu.halted = true) : cpu.stepsFrom budget consumed = [] := by
  have stopped : ¬(consumed < budget ∧ cpu.halted = false) := by
    rintro ⟨left, running⟩
    rcases stop with exhausted | halted
    · omega
    · simp [running] at halted
  rw [stepsFrom, dif_neg stopped]

theorem stepsFrom_fail {cpu after : Cpu β} {budget consumed : Nat} {error : StepError}
    (left : consumed < budget) (running : cpu.halted = false)
    (stepped : cpu.step = (.error error, after)) :
    cpu.stepsFrom budget consumed = [(.error error, after)] := by
  rw [stepsFrom, dif_pos ⟨left, running⟩]
  split <;> simp_all

theorem stepsFrom_step {cpu after : Cpu β} {budget consumed cycles : Nat}
    (left : consumed < budget) (running : cpu.halted = false)
    (stepped : cpu.step = (.ok cycles, after)) :
    cpu.stepsFrom budget consumed =
      (.ok cycles, after) :: after.stepsFrom budget (consumed + cycles) := by
  rw [stepsFrom, dif_pos ⟨left, running⟩]
  split <;> simp_all

inductive Execution (budget : Nat) : Cpu β → Nat → Prop
  | stop {cpu consumed} : budget ≤ consumed ∨ cpu.halted = true → Execution budget cpu consumed
  | fail {cpu consumed error after} : consumed < budget → cpu.halted = false →
      cpu.step = (.error error, after) → Execution budget cpu consumed
  | step {cpu consumed cycles after} : consumed < budget → cpu.halted = false →
      cpu.step = (.ok cycles, after) → Execution budget after (consumed + cycles) →
      Execution budget cpu consumed

/-- Every execution comes to an end, because a step that succeeds uses up cycles. -/
theorem execution (budget : Nat) (cpu : Cpu β) (consumed : Nat) :
    Execution budget cpu consumed := by
  generalize leftEq : budget - consumed = left
  induction left using Nat.strongRecOn generalizing cpu consumed with
  | ind left ih =>
      by_cases stopped : budget ≤ consumed ∨ cpu.halted = true
      · exact .stop stopped
      · obtain ⟨enough, running⟩ : consumed < budget ∧ cpu.halted = false := by
          simpa using stopped
        rcases stepped : cpu.step with ⟨error | cycles, after⟩
        · exact .fail enough running stepped
        · have used := step_cycles_pos cpu after cycles running stepped
          exact .step enough running stepped
            (ih (budget - (consumed + cycles)) (by omega) after (consumed + cycles) rfl)

theorem executeFrom_after (cpu : Cpu β) (budget consumed : Nat) :
    (cpu.executeFrom budget consumed).2 =
      cpu.after (cpu.stepsFrom budget consumed).length := by
  induction execution budget cpu consumed with
  | stop stopped =>
      rw [executeFrom_stop _ stopped, stepsFrom_stop _ stopped]
      rfl
  | fail left running stepped =>
      rw [executeFrom_fail left running stepped, stepsFrom_fail left running stepped,
        List.length_singleton, after, stepped]
      rfl
  | step left running stepped _ ih =>
      rw [executeFrom_step left running stepped, stepsFrom_step left running stepped,
        List.length_cons, after, stepped]
      exact ih

theorem executeFrom_add (spent budget : Nat) (cpu : Cpu β) (consumed : Nat) :
    cpu.executeFrom (spent + budget) (spent + consumed) =
      ((cpu.executeFrom budget consumed).1.map (spent + ·),
        (cpu.executeFrom budget consumed).2) := by
  induction execution budget cpu consumed with
  | stop stopped =>
      rw [executeFrom_stop _ stopped,
        executeFrom_stop _ (stopped.imp_left (Nat.add_le_add_left · spent))]
      rfl
  | fail left running stepped =>
      rw [executeFrom_fail left running stepped, executeFrom_fail (by omega) running stepped]
      rfl
  | step left running stepped _ ih =>
      rw [executeFrom_step left running stepped, executeFrom_step (by omega) running stepped,
        Nat.add_assoc, ih]

theorem stepsFrom_add (spent budget : Nat) (cpu : Cpu β) (consumed : Nat) :
    cpu.stepsFrom (spent + budget) (spent + consumed) = cpu.stepsFrom budget consumed := by
  induction execution budget cpu consumed with
  | stop stopped =>
      rw [stepsFrom_stop _ stopped,
        stepsFrom_stop _ (stopped.imp_left (Nat.add_le_add_left · spent))]
  | fail left running stepped =>
      rw [stepsFrom_fail left running stepped, stepsFrom_fail (by omega) running stepped]
  | step left running stepped _ ih =>
      rw [stepsFrom_step left running stepped, stepsFrom_step (by omega) running stepped,
        Nat.add_assoc, ih]

end Nmos6502.Cpu
