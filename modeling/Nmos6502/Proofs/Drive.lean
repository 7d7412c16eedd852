import Nmos6502.Proofs.Run

/-!
A host that spends a budget under the debugger calls `run` again whenever it stops at a
breakpoint or a watchpoint. Its calls together are one execution of the whole budget: the
same steps, the same result, the same processor at the end.
-/

namespace Nmos6502

def StopReason.isFinal : StopReason → Bool
  | .halted | .budgetExhausted => true
  | .breakpoint _ | .watchpoint _ => false

theorem Session.stopReason?_not_final {sighting : Sighting} {reason : StopReason}
    (stopped : stopReason? sighting = some reason) : reason.isFinal = false := by
  rcases sighting with ⟨_ | breakpoint, _ | watchpoint⟩ <;>
    simp only [stopReason?, Option.some.injEq, reduceCtorEq] at stopped <;>
    simp [← stopped, StopReason.isFinal]

namespace Session

variable {β : Type} [Bus β]

theorem runFrom_error (budget : Nat) (session : Session β) (consumed : Nat) {error : StepError}
    {after : Session β} (ran : session.runFrom budget consumed = (.error error, after)) :
    session.cpu.executeFrom budget consumed = (.error error, after.cpu) ∧
      session.cpu.stepsFrom budget consumed =
        (session.stepsFrom budget consumed).map Outcome.ofCpu := by
  induction run_ends budget session consumed with
  | halted halted => simp [runFrom_halted halted] at ran
  | exhausted running exhausted => simp [runFrom_exhausted running exhausted] at ran
  | fail running left stepped =>
      rw [runFrom_fail running left stepped] at ran
      cases ran
      have cpuStep := cpu_step_of_stepSighted stepped
      rw [Cpu.executeFrom_fail left running cpuStep, Cpu.stepsFrom_fail left running cpuStep,
        stepsFrom_fail running left stepped]
      exact ⟨rfl, rfl⟩
  | stop running left stepped stopped =>
      simp [runFrom_stop running left stepped stopped] at ran
  | step running left stepped undisturbed _ ih =>
      rw [runFrom_step running left stepped undisturbed] at ran
      have cpuStep := cpu_step_of_stepSighted stepped
      obtain ⟨executed, same⟩ := ih ran
      rw [Cpu.executeFrom_step left running cpuStep, Cpu.stepsFrom_step left running cpuStep,
        stepsFrom_step running left stepped undisturbed, List.map_cons, same]
      exact ⟨executed, rfl⟩

theorem runFrom_ok (budget : Nat) (session : Session β) (consumed : Nat) {outcome : RunOutcome}
    {after : Session β} (ran : session.runFrom budget consumed = (.ok outcome, after)) :
    session.cpu.executeFrom budget consumed = after.cpu.executeFrom budget outcome.cycles ∧
      session.cpu.stepsFrom budget consumed =
        (session.stepsFrom budget consumed).map Outcome.ofCpu ++
          after.cpu.stepsFrom budget outcome.cycles := by
  induction run_ends budget session consumed with
  | halted halted =>
      rw [runFrom_halted halted] at ran
      cases ran
      rw [stepsFrom_idle (.inl halted)]
      exact ⟨rfl, rfl⟩
  | exhausted running exhausted =>
      rw [runFrom_exhausted running exhausted] at ran
      cases ran
      rw [stepsFrom_idle (.inr exhausted)]
      exact ⟨rfl, rfl⟩
  | fail running left stepped => simp [runFrom_fail running left stepped] at ran
  | stop running left stepped stopped =>
      rw [runFrom_stop running left stepped stopped] at ran
      cases ran
      have cpuStep := cpu_step_of_stepSighted stepped
      rw [Cpu.executeFrom_step left running cpuStep, Cpu.stepsFrom_step left running cpuStep,
        stepsFrom_stop running left stepped stopped]
      exact ⟨rfl, rfl⟩
  | step running left stepped undisturbed _ ih =>
      rw [runFrom_step running left stepped undisturbed] at ran
      have cpuStep := cpu_step_of_stepSighted stepped
      obtain ⟨executed, same⟩ := ih ran
      rw [Cpu.executeFrom_step left running cpuStep, Cpu.stepsFrom_step left running cpuStep,
        stepsFrom_step running left stepped undisturbed, List.map_cons, same]
      exact ⟨executed, rfl⟩

/-- A final reason is true of the processor; any other comes after at least one cycle. -/
theorem runFrom_reason (budget : Nat) (session : Session β) (consumed : Nat)
    {outcome : RunOutcome} {after : Session β}
    (ran : session.runFrom budget consumed = (.ok outcome, after)) :
    if outcome.reason.isFinal then budget ≤ outcome.cycles ∨ after.cpu.halted = true
    else consumed < outcome.cycles := by
  induction run_ends budget session consumed with
  | halted halted =>
      rw [runFrom_halted halted] at ran
      cases ran
      exact .inr halted
  | exhausted running exhausted =>
      rw [runFrom_exhausted running exhausted] at ran
      cases ran
      exact .inl exhausted
  | fail running left stepped => simp [runFrom_fail running left stepped] at ran
  | stop running left stepped stopped =>
      rw [runFrom_stop running left stepped stopped] at ran
      cases ran
      -- A stop comes after a step, and each step costs something.
      have used := stepSighted_cycles_pos _ _ _ _ running stepped
      simp only [stopReason?_not_final stopped, Bool.false_eq_true, if_false]
      omega
  | step running left stepped undisturbed _ ih =>
      rw [runFrom_step running left stepped undisturbed] at ran
      have rest := ih ran
      split at rest
      · rename_i final
        rwa [if_pos final]
      · rename_i early
        rw [if_neg early]
        omega

end Session

structure Drive (β : Type) where
  outcomes : List RunOutcome
  error : Option StepError
  steps : List (Session.Outcome β)
  final : Session β

namespace Drive

variable {β : Type}

def totalCycles (drive : Drive β) : Nat :=
  drive.outcomes.foldr (fun outcome total => outcome.cycles + total) 0

def result (drive : Drive β) : Except StepError Nat :=
  match drive.error with
  | some error => .error error
  | none => .ok drive.totalCycles

def precede (drive : Drive β) (outcome : RunOutcome) (steps : List (Session.Outcome β)) :
    Drive β :=
  { drive with outcomes := outcome :: drive.outcomes, steps := steps ++ drive.steps }

theorem result_precede (drive : Drive β) (outcome : RunOutcome)
    (steps : List (Session.Outcome β)) :
    (drive.precede outcome steps).result = drive.result.map (outcome.cycles + ·) := by
  rcases drive with ⟨outcomes, _ | error, taken, final⟩ <;> rfl

end Drive

namespace Session

variable {β : Type} [Bus β]

theorem run_leaves_less {session after : Session β} {budget : Nat} {outcome : RunOutcome}
    (ran : session.run budget = (.ok outcome, after))
    (unfinished : ¬(outcome.reason.isFinal = true ∨ budget ≤ outcome.cycles)) :
    budget - outcome.cycles < budget := by
  have used := runFrom_reason budget session 0 ran
  simp only [not_or, Bool.not_eq_true, Nat.not_le] at unfinished
  simp only [unfinished.1, Bool.false_eq_true, if_false] at used
  omega

/-- Calls `run` with the part of the budget that is not yet used up until a call fails or
reports a final reason, or no budget is left. -/
def drive (session : Session β) (budget : Nat) : Drive β :=
  let steps := session.stepsFrom budget 0
  match ran : session.run budget with
  | (.error error, after) => { outcomes := [], error := some error, steps, final := after }
  | (.ok outcome, after) =>
      if finished : outcome.reason.isFinal = true ∨ budget ≤ outcome.cycles then
        { outcomes := [outcome], error := none, steps, final := after }
      else
        have := run_leaves_less ran finished
        (after.drive (budget - outcome.cycles)).precede outcome steps
termination_by budget
decreasing_by assumption

theorem drive_fail {session after : Session β} {budget : Nat} {error : StepError}
    (ran : session.run budget = (.error error, after)) :
    session.drive budget =
      { outcomes := [], error := some error, steps := session.stepsFrom budget 0,
        final := after } := by
  rw [drive]
  split <;> simp_all

theorem drive_finish {session after : Session β} {budget : Nat} {outcome : RunOutcome}
    (ran : session.run budget = (.ok outcome, after))
    (finished : outcome.reason.isFinal = true ∨ budget ≤ outcome.cycles) :
    session.drive budget =
      { outcomes := [outcome], error := none, steps := session.stepsFrom budget 0,
        final := after } := by
  rw [drive]
  split <;> simp_all

theorem drive_resume {session after : Session β} {budget : Nat} {outcome : RunOutcome}
    (ran : session.run budget = (.ok outcome, after))
    (unfinished : ¬(outcome.reason.isFinal = true ∨ budget ≤ outcome.cycles)) :
    session.drive budget =
      (after.drive (budget - outcome.cycles)).precede outcome (session.stepsFrom budget 0) := by
  rw [drive]
  split
  · simp_all
  · rename_i found _ same
    rw [ran] at same
    cases same
    rw [dif_neg unfinished]

theorem execute_after_run {session after : Session β} {budget : Nat} {outcome : RunOutcome}
    (ran : session.run budget = (.ok outcome, after)) (left : outcome.cycles < budget) :
    session.cpu.execute budget =
        ((after.cpu.execute (budget - outcome.cycles)).1.map (outcome.cycles + ·),
          (after.cpu.execute (budget - outcome.cycles)).2) ∧
      session.cpu.stepsFrom budget 0 =
        (session.stepsFrom budget 0).map Outcome.ofCpu ++
          after.cpu.stepsFrom (budget - outcome.cycles) 0 := by
  obtain ⟨executed, same⟩ := runFrom_ok budget session 0 ran
  obtain ⟨rest, rfl⟩ := Nat.exists_eq_add_of_lt left
  have remaining : outcome.cycles + rest + 1 - outcome.cycles = rest + 1 := by omega
  rw [remaining, Cpu.execute, executed, same]
  have shifted := Cpu.executeFrom_add outcome.cycles (rest + 1) after.cpu 0
  have shiftedSteps := Cpu.stepsFrom_add outcome.cycles (rest + 1) after.cpu 0
  rw [Nat.add_zero, ← Nat.add_assoc] at shifted shiftedSteps
  exact ⟨shifted, congrArg _ shiftedSteps⟩

theorem execute_of_finished {session after : Session β} {budget : Nat} {outcome : RunOutcome}
    (ran : session.run budget = (.ok outcome, after))
    (finished : outcome.reason.isFinal = true ∨ budget ≤ outcome.cycles) :
    session.cpu.execute budget = (.ok outcome.cycles, after.cpu) ∧
      session.cpu.stepsFrom budget 0 = (session.stepsFrom budget 0).map Outcome.ofCpu := by
  have stopped : budget ≤ outcome.cycles ∨ after.cpu.halted = true := by
    rcases finished with final | exhausted
    · have reason := runFrom_reason budget session 0 ran
      rwa [if_pos final] at reason
    · exact .inl exhausted
  obtain ⟨executed, same⟩ := runFrom_ok budget session 0 ran
  rw [Cpu.execute, executed, same, Cpu.executeFrom_stop _ stopped, Cpu.stepsFrom_stop _ stopped]
  exact ⟨rfl, List.append_nil _⟩

theorem drive_steps (session : Session β) (budget : Nat) :
    (session.drive budget).steps.map Outcome.ofCpu = session.cpu.stepsFrom budget 0 := by
  induction budget using Nat.strongRecOn generalizing session with
  | ind budget ih =>
      rcases ran : session.run budget with ⟨error | outcome, after⟩
      · rw [drive_fail ran]
        exact (runFrom_error budget session 0 ran).2.symm
      · by_cases finished : outcome.reason.isFinal = true ∨ budget ≤ outcome.cycles
        · rw [drive_finish ran finished]
          exact (execute_of_finished ran finished).2.symm
        · rw [drive_resume ran finished, Drive.precede, List.map_append,
            ih _ (run_leaves_less ran finished)]
          exact (execute_after_run ran (by simp only [not_or] at finished; omega)).2.symm

theorem drive_execute (session : Session β) (budget : Nat) :
    ((session.drive budget).result, (session.drive budget).final.cpu) =
      session.cpu.execute budget := by
  induction budget using Nat.strongRecOn generalizing session with
  | ind budget ih =>
      rcases ran : session.run budget with ⟨error | outcome, after⟩
      · rw [drive_fail ran]
        exact (runFrom_error budget session 0 ran).1.symm
      · by_cases finished : outcome.reason.isFinal = true ∨ budget ≤ outcome.cycles
        · rw [drive_finish ran finished]
          exact (execute_of_finished ran finished).1.symm
        · rw [drive_resume ran finished, Drive.result_precede,
            (execute_after_run ran (by simp only [not_or] at finished; omega)).1,
            ← ih _ (run_leaves_less ran finished) after]
          rfl

theorem drive_after (session : Session β) (budget : Nat) :
    (session.drive budget).steps = session.steps (session.drive budget).steps.length ∧
      (session.drive budget).final = session.after (session.drive budget).steps.length := by
  induction budget using Nat.strongRecOn generalizing session with
  | ind budget ih =>
      have firstSteps := stepsFrom_eq_steps session budget 0
      have firstAfter := runFrom_after session budget 0
      rcases ran : session.run budget with ⟨error | outcome, after⟩
      · rw [drive_fail ran]
        rw [← run, ran] at firstAfter
        exact ⟨firstSteps, firstAfter⟩
      · rw [← run, ran] at firstAfter
        by_cases finished : outcome.reason.isFinal = true ∨ budget ≤ outcome.cycles
        · rw [drive_finish ran finished]
          exact ⟨firstSteps, firstAfter⟩
        · obtain ⟨restSteps, restAfter⟩ := ih _ (run_leaves_less ran finished) after
          rw [drive_resume ran finished, Drive.precede, List.length_append, steps_add, after_add,
            ← firstAfter, ← restSteps, ← firstSteps]
          exact ⟨rfl, restAfter⟩

/-- Running under the debugger never changes what the program does: calls of `run` that spend
a budget take the steps that `execute` takes, return what it returns and end where it ends.
They come to an end, as a call takes no step only if there is nothing to run. -/
theorem drive_eq_execute (session : Session β) (budget : Nat) :
    (session.drive budget).steps = session.steps (session.drive budget).steps.length ∧
      (session.drive budget).steps.map Outcome.ofCpu = session.cpu.stepsFrom budget 0 ∧
      session.cpu.stepsFrom budget 0 = session.cpu.steps (session.drive budget).steps.length ∧
      (session.cpu.execute budget).2 = session.cpu.after (session.drive budget).steps.length ∧
      (session.drive budget).final = session.after (session.drive budget).steps.length ∧
      (session.drive budget).final.cpu = (session.cpu.execute budget).2 ∧
      (session.drive budget).result = (session.cpu.execute budget).1 ∧
      (session.stepsFrom budget 0 = [] ↔ session.cpu.halted = true ∨ budget = 0) := by
  obtain ⟨consecutive, finalAfter⟩ := drive_after session budget
  have sameSteps := drive_steps session budget
  have sameEnd := drive_execute session budget
  have cpuSteps : session.cpu.stepsFrom budget 0 =
      session.cpu.steps (session.drive budget).steps.length := by
    rw [← sameSteps, consecutive, steps_ofCpu, ← consecutive]
  have cpuAfter := Cpu.executeFrom_after session.cpu budget 0
  rw [← sameSteps, List.length_map] at cpuAfter
  refine ⟨consecutive, sameSteps, cpuSteps, cpuAfter, finalAfter, congrArg Prod.snd sameEnd,
    congrArg Prod.fst sameEnd, ?_⟩
  rw [stepsFrom_eq_nil_iff, Nat.le_zero]

end Session

end Nmos6502
