import Nmos6502.Cpu.Execute
import Nmos6502.Debugger.Observe

/-!
A processor under a debugger: every step is observed, and a run goes on until there is a
reason to stop.
-/

namespace Nmos6502

structure Session (β : Type) where
  cpu : Cpu β
  debugger : Debugger

inductive StopReason
  | breakpoint (address : UInt16)
  | watchpoint (address : UInt16)
  | halted
  | budgetExhausted
  deriving DecidableEq, Repr

structure RunOutcome where
  reason : StopReason
  cycles : Nat
  deriving DecidableEq, Repr

namespace Session

variable {β : Type} [Bus β]

def stepSighted (session : Session β) : Except StepError Nat × Sighting × Session β :=
  let (result, cpu) := session.cpu.step
  let (debugger, sighting) := session.debugger.observe cpu
  (result, sighting, ⟨cpu, debugger⟩)

def step (session : Session β) : Except StepError Nat × Session β :=
  let (result, _, after) := session.stepSighted
  (result, after)

def observe (session : Session β) : Session β :=
  { session with debugger := (session.debugger.observe session.cpu).1 }

/-- Answers with the watchpoint that was there before. What is at the address now is what later
writes are measured against. -/
def setWatchpoint (session : Session β) (address : UInt16) (filter : AccessFilter)
    (condition : Option Condition) (name : Option String) : Option Watchpoint × Session β :=
  let (replaced, debugger) := session.debugger.setWatchpoint address filter condition name
    (Bus.peek session.cpu.memory address)
  (replaced, { session with debugger })

def stopReason? (sighting : Sighting) : Option StopReason :=
  match sighting.breakpoint, sighting.watchpoint with
  | some address, _ => some (.breakpoint address)
  | none, some address => some (.watchpoint address)
  | none, none => none

theorem stepSighted_cycles_pos (session after : Session β) (sighting : Sighting) (consumed : Nat)
    (running : session.cpu.halted = false)
    (stepped : session.stepSighted = (.ok consumed, sighting, after)) : 0 < consumed := by
  simp only [stepSighted, Prod.mk.injEq] at stepped
  exact Cpu.step_cycles_pos session.cpu session.cpu.step.2 consumed running
    (Prod.ext stepped.1 rfl)

def runFrom (session : Session β) (budget consumed : Nat) :
    Except StepError RunOutcome × Session β :=
  if halted : session.cpu.halted = true then (.ok ⟨.halted, consumed⟩, session)
  else if exhausted : budget ≤ consumed then (.ok ⟨.budgetExhausted, consumed⟩, session)
  else
    match stepped : session.stepSighted with
    | (.error error, _, after) => (.error error, after)
    | (.ok cycles, sighting, after) =>
        match stopReason? sighting with
        | some reason => (.ok ⟨reason, consumed + cycles⟩, after)
        | none =>
            have := stepSighted_cycles_pos session after sighting cycles (by simpa using halted)
              stepped
            after.runFrom budget (consumed + cycles)
termination_by budget - consumed

theorem runFrom_halted {session : Session β} (halted : session.cpu.halted = true)
    (budget consumed : Nat) :
    session.runFrom budget consumed = (.ok ⟨.halted, consumed⟩, session) := by
  rw [runFrom, dif_pos halted]

theorem runFrom_exhausted {session : Session β} {budget consumed : Nat}
    (running : session.cpu.halted = false) (exhausted : budget ≤ consumed) :
    session.runFrom budget consumed = (.ok ⟨.budgetExhausted, consumed⟩, session) := by
  rw [runFrom, dif_neg (by simp [running]), dif_pos exhausted]

theorem runFrom_fail {session after : Session β} {budget consumed : Nat} {error : StepError}
    {sighting : Sighting} (running : session.cpu.halted = false) (left : consumed < budget)
    (stepped : session.stepSighted = (.error error, sighting, after)) :
    session.runFrom budget consumed = (.error error, after) := by
  rw [runFrom, dif_neg (by simp [running]), dif_neg (by omega)]
  split <;> simp_all

theorem runFrom_stop {session after : Session β} {budget consumed cycles : Nat}
    {sighting : Sighting} {reason : StopReason} (running : session.cpu.halted = false)
    (left : consumed < budget) (stepped : session.stepSighted = (.ok cycles, sighting, after))
    (stopped : stopReason? sighting = some reason) :
    session.runFrom budget consumed = (.ok ⟨reason, consumed + cycles⟩, after) := by
  rw [runFrom, dif_neg (by simp [running]), dif_neg (by omega)]
  split
  · simp_all
  · split <;> simp_all

theorem runFrom_step {session after : Session β} {budget consumed cycles : Nat}
    {sighting : Sighting} (running : session.cpu.halted = false) (left : consumed < budget)
    (stepped : session.stepSighted = (.ok cycles, sighting, after))
    (undisturbed : stopReason? sighting = none) :
    session.runFrom budget consumed = after.runFrom budget (consumed + cycles) := by
  rw [runFrom, dif_neg (by simp [running]), dif_neg (by omega)]
  split
  · simp_all
  · split <;> simp_all

/-- Stops when a step failed, a breakpoint or watchpoint was hit, the processor is halted,
or the budget is used up; of several reasons the first of these counts. -/
def run (session : Session β) (budget : Nat) : Except StepError RunOutcome × Session β :=
  session.runFrom budget 0

end Session

end Nmos6502
