import Nmos6502.Proofs.Steps
import Nmos6502.Session

/-!
A run under the debugger against a plain execution. Each of its steps is a step of the
processor, and where a run stops early the execution still has the rest of the budget to go.
-/

namespace Nmos6502.Session

variable {β : Type} [Bus β]

abbrev Outcome (β : Type) := Except StepError Nat × Sighting × Session β

def Outcome.ofCpu (outcome : Outcome β) : Cpu.Outcome β :=
  (outcome.1, outcome.2.2.cpu)

theorem stepSighted_ofCpu (session : Session β) :
    Outcome.ofCpu session.stepSighted = session.cpu.step := rfl

theorem cpu_step_of_stepSighted {session after : Session β} {result : Except StepError Nat}
    {sighting : Sighting} (stepped : session.stepSighted = (result, sighting, after)) :
    session.cpu.step = (result, after.cpu) := by
  rw [← stepSighted_ofCpu, stepped]
  rfl

def steps (session : Session β) : Nat → List (Outcome β)
  | 0 => []
  | count + 1 => session.stepSighted :: session.stepSighted.2.2.steps count

def after (session : Session β) : Nat → Session β
  | 0 => session
  | count + 1 => session.step.2.after count

theorem after_add (session : Session β) (first second : Nat) :
    session.after (first + second) = (session.after first).after second := by
  induction first generalizing session with
  | zero => rw [Nat.zero_add, after]
  | succ first ih =>
      rw [Nat.add_right_comm]
      exact ih session.step.2

theorem steps_add (session : Session β) (first second : Nat) :
    session.steps (first + second) = session.steps first ++ (session.after first).steps second := by
  induction first generalizing session with
  | zero => rw [Nat.zero_add, steps, after, List.nil_append]
  | succ first ih =>
      rw [Nat.add_right_comm, steps, steps, ih, List.cons_append]
      rfl

theorem length_steps (session : Session β) (count : Nat) :
    (session.steps count).length = count := by
  induction count generalizing session with
  | zero => rfl
  | succ count ih => exact congrArg (· + 1) (ih _)

theorem steps_ofCpu (session : Session β) (count : Nat) :
    (session.steps count).map Outcome.ofCpu = session.cpu.steps count := by
  induction count generalizing session with
  | zero => rfl
  | succ count ih =>
      rw [steps, List.map_cons, ih, stepSighted_ofCpu, Cpu.steps]
      rfl

/-- The steps that `runFrom` takes. -/
def stepsFrom (session : Session β) (budget consumed : Nat) : List (Outcome β) :=
  if running : session.cpu.halted = false ∧ consumed < budget then
    match stepped : session.stepSighted with
    | (.error error, sighting, after) => [(.error error, sighting, after)]
    | (.ok cycles, sighting, after) =>
        have := stepSighted_cycles_pos session after sighting cycles running.1 stepped
        (.ok cycles, sighting, after) ::
          if (stopReason? sighting).isSome then [] else after.stepsFrom budget (consumed + cycles)
  else []
termination_by budget - consumed

theorem stepsFrom_idle {session : Session β} {budget consumed : Nat}
    (idle : session.cpu.halted = true ∨ budget ≤ consumed) :
    session.stepsFrom budget consumed = [] := by
  have stopped : ¬(session.cpu.halted = false ∧ consumed < budget) := by
    rintro ⟨running, left⟩
    rcases idle with halted | exhausted
    · simp [running] at halted
    · omega
  rw [stepsFrom, dif_neg stopped]

theorem stepsFrom_fail {session after : Session β} {budget consumed : Nat} {error : StepError}
    {sighting : Sighting} (running : session.cpu.halted = false) (left : consumed < budget)
    (stepped : session.stepSighted = (.error error, sighting, after)) :
    session.stepsFrom budget consumed = [(.error error, sighting, after)] := by
  rw [stepsFrom, dif_pos ⟨running, left⟩]
  split <;> simp_all

theorem stepsFrom_stop {session after : Session β} {budget consumed cycles : Nat}
    {sighting : Sighting} {reason : StopReason} (running : session.cpu.halted = false)
    (left : consumed < budget) (stepped : session.stepSighted = (.ok cycles, sighting, after))
    (stopped : stopReason? sighting = some reason) :
    session.stepsFrom budget consumed = [(.ok cycles, sighting, after)] := by
  rw [stepsFrom, dif_pos ⟨running, left⟩]
  split <;> simp_all

theorem stepsFrom_step {session after : Session β} {budget consumed cycles : Nat}
    {sighting : Sighting} (running : session.cpu.halted = false) (left : consumed < budget)
    (stepped : session.stepSighted = (.ok cycles, sighting, after))
    (undisturbed : stopReason? sighting = none) :
    session.stepsFrom budget consumed =
      (.ok cycles, sighting, after) :: after.stepsFrom budget (consumed + cycles) := by
  rw [stepsFrom, dif_pos ⟨running, left⟩]
  split <;> simp_all

theorem stepsFrom_eq_nil_iff (session : Session β) (budget consumed : Nat) :
    session.stepsFrom budget consumed = [] ↔ session.cpu.halted = true ∨ budget ≤ consumed := by
  constructor
  · intro empty
    rcases running : session.cpu.halted with _ | _
    · refine .inr (Nat.le_of_not_lt fun left => ?_)
      rw [stepsFrom, dif_pos ⟨running, left⟩] at empty
      split at empty <;> simp at empty
    · exact .inl rfl
  · exact stepsFrom_idle

/-- How a run goes on from a session and the cycles used up so far. -/
inductive Run (budget : Nat) : Session β → Nat → Prop
  | halted {session consumed} : session.cpu.halted = true → Run budget session consumed
  | exhausted {session consumed} : session.cpu.halted = false → budget ≤ consumed →
      Run budget session consumed
  | fail {session consumed error sighting after} : session.cpu.halted = false →
      consumed < budget → session.stepSighted = (.error error, sighting, after) →
      Run budget session consumed
  | stop {session consumed cycles sighting after reason} : session.cpu.halted = false →
      consumed < budget → session.stepSighted = (.ok cycles, sighting, after) →
      stopReason? sighting = some reason → Run budget session consumed
  | step {session consumed cycles sighting after} : session.cpu.halted = false →
      consumed < budget → session.stepSighted = (.ok cycles, sighting, after) →
      stopReason? sighting = none → Run budget after (consumed + cycles) →
      Run budget session consumed

theorem run_ends (budget : Nat) (session : Session β) (consumed : Nat) :
    Run budget session consumed := by
  generalize leftEq : budget - consumed = left
  induction left using Nat.strongRecOn generalizing session consumed with
  | ind left ih =>
      rcases running : session.cpu.halted with _ | _
      · by_cases exhausted : budget ≤ consumed
        · exact .exhausted running exhausted
        · have enough : consumed < budget := by omega
          rcases stepped : session.stepSighted with ⟨error | cycles, sighting, after⟩
          · exact .fail running enough stepped
          · rcases stopped : stopReason? sighting with _ | reason
            · have used := stepSighted_cycles_pos session after sighting cycles running stepped
              exact .step running enough stepped stopped
                (ih (budget - (consumed + cycles)) (by omega) after (consumed + cycles) rfl)
            · exact .stop running enough stepped stopped
      · exact .halted running

theorem stepsFrom_eq_steps (session : Session β) (budget consumed : Nat) :
    session.stepsFrom budget consumed =
      session.steps (session.stepsFrom budget consumed).length := by
  induction run_ends budget session consumed with
  | halted halted => simp [stepsFrom_idle (.inl halted), steps]
  | exhausted _ exhausted => simp [stepsFrom_idle (.inr exhausted), steps]
  | fail running left stepped => simp [stepsFrom_fail running left stepped, steps, stepped]
  | stop running left stepped stopped =>
      simp [stepsFrom_stop running left stepped stopped, steps, stepped]
  | step running left stepped undisturbed _ ih =>
      rw [stepsFrom_step running left stepped undisturbed, List.length_cons, steps, stepped]
      exact congrArg _ ih

theorem runFrom_after (session : Session β) (budget consumed : Nat) :
    (session.runFrom budget consumed).2 =
      session.after (session.stepsFrom budget consumed).length := by
  induction run_ends budget session consumed with
  | halted halted =>
      rw [runFrom_halted halted, stepsFrom_idle (.inl halted)]
      rfl
  | exhausted running exhausted =>
      rw [runFrom_exhausted running exhausted, stepsFrom_idle (.inr exhausted)]
      rfl
  | fail running left stepped =>
      rw [runFrom_fail running left stepped, stepsFrom_fail running left stepped,
        List.length_singleton, after, after, step, stepped]
  | stop running left stepped stopped =>
      rw [runFrom_stop running left stepped stopped, stepsFrom_stop running left stepped stopped,
        List.length_singleton, after, after, step, stepped]
  | step running left stepped undisturbed _ ih =>
      rw [runFrom_step running left stepped undisturbed,
        stepsFrom_step running left stepped undisturbed, List.length_cons, after, step, stepped]
      exact ih

end Nmos6502.Session
