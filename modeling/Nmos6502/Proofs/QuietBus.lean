import Nmos6502.Proofs.Blame
import Nmos6502.Proofs.Run
import Nmos6502.Proofs.SessionOperations

/-!
Buses that never have a fault and never pull the interrupt line. No session on one of them
ever tells of either.
-/

namespace Nmos6502

structure Bus.Quiet (β : Type) [Bus β] : Prop where
  fault : ∀ memory : β, Bus.fault memory = none
  interruptLine : ∀ memory : β, Bus.interruptLine memory = false

/-- Tells of no fault and of no interrupt that the bus requests. -/
def Answer.Quiet : Answer → Prop
  | consumed result => ∀ fault, result ≠ .error (.bus fault)
  | fault found => found = none
  | line pulled => pulled = false
  | done | byte _ | word _ | peeked _ => True

def Session.Answer.Quiet : Session.Answer → Prop
  | processor answer => answer.Quiet
  | stepped result => ∀ fault, result ≠ .error (.bus fault)
  | ran result => ∀ fault, result ≠ .error (.bus fault)
  | done | events _ | text _ | summary _ => True

variable {β : Type} [Bus β]

namespace Cpu

theorem step_ne_bus (quiet : Bus.Quiet β) (cpu : Cpu β)
    (fault : BusFault) : cpu.step.1 ≠ .error (.bus fault) := by
  rw [(cpu.step_blames (quiet.fault _)).1, quiet.fault, blame]
  exact cpu.verdict_ne_bus fault

theorem executeFrom_ne_bus (quiet : Bus.Quiet β) (cpu : Cpu β)
    (budget consumed : Nat) (fault : BusFault) :
    (cpu.executeFrom budget consumed).1 ≠ .error (.bus fault) := by
  induction execution budget cpu consumed with
  | stop stopped => simp [executeFrom_stop _ stopped]
  | @fail cpu _ _ _ left running stepped =>
      have innocent := cpu.step_ne_bus quiet fault
      rw [stepped] at innocent
      rwa [executeFrom_fail left running stepped]
  | step left running stepped _ ih =>
      rwa [executeFrom_step left running stepped]

theorem carryOut_quiet (quiet : Bus.Quiet β) (cpu : Cpu β) (operation : Operation) :
    (cpu.carryOut operation).1.Quiet := by
  cases operation with
  | step => exact cpu.step_ne_bus quiet
  | execute budget => exact cpu.executeFrom_ne_bus quiet budget 0
  | takeFault => exact quiet.fault cpu.memory
  | senseLine => exact quiet.interruptLine cpu.memory
  | _ => trivial

end Cpu

namespace Session

theorem runFrom_ne_bus (quiet : Bus.Quiet β) (session : Session β)
    (budget consumed : Nat) (fault : BusFault) :
    (session.runFrom budget consumed).1 ≠ .error (.bus fault) := by
  induction run_ends budget session consumed with
  | halted halted => simp [runFrom_halted halted]
  | exhausted running exhausted => simp [runFrom_exhausted running exhausted]
  | @fail session _ _ _ _ running left stepped =>
      have innocent := session.cpu.step_ne_bus quiet fault
      rw [cpu_step_of_stepSighted stepped] at innocent
      rw [runFrom_fail running left stepped]
      simpa using innocent
  | stop running left stepped stopped => simp [runFrom_stop running left stepped stopped]
  | step running left stepped undisturbed _ ih =>
      rwa [runFrom_step running left stepped undisturbed]

theorem carryOut_quiet (quiet : Bus.Quiet β) (session : Session β) (operation : Operation) :
    (session.carryOut operation).1.Quiet := by
  cases operation with
  | processor operation => exact session.cpu.carryOut_quiet quiet operation
  | step => exact session.cpu.step_ne_bus quiet
  | run budget => exact session.runFrom_ne_bus quiet budget 0
  | _ => trivial

end Session

end Nmos6502
