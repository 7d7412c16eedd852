import Nmos6502.Proofs.FirstStop
import Nmos6502.Proofs.RecordLife
import Nmos6502.Proofs.SessionOperations

/-!
A session as its debugger sees it. Steps and runs are observations one after the other, and all
that a host asks for comes down to a list of operations of the debugger.
-/

namespace Nmos6502

namespace Session

/-- What a host asks of a session, with every request to the debugger told apart. -/
inductive Request (β : Type)
  | step
  | run (budget : Nat)
  | observe
  | processor (operation : Nmos6502.Operation)
  | debugger (operation : Debugger.Operation β)

variable {β : Type} [Bus β]

def serve (session : Session β) : Request β → Answer × Session β
  | .step => session.carryOut .step
  | .run budget => session.carryOut (.run budget)
  | .observe => session.carryOut .observe
  | .processor operation => session.carryOut (.processor operation)
  | .debugger operation =>
      let (events, debugger) := session.debugger.carryOut operation
      (.events events, { session with debugger })

def serveAll (session : Session β) (requests : List (Request β)) : List Answer × Session β :=
  Dialogue.run serve session requests

def dealings (session : Session β) : Request β → List (Debugger.Operation β)
  | .step => [.observe session.step.2.cpu]
  | .run budget => (session.stepsFrom budget 0).map fun outcome => .observe outcome.2.2.cpu
  | .observe => [.observe session.cpu]
  | .processor _ => []
  | .debugger operation => [operation]

def trail (session : Session β) (requests : List (Request β)) : List (Debugger.Operation β) :=
  Dialogue.gather serve dealings session requests

theorem after_debugger (session : Session β) (count : Nat) :
    (session.after count).debugger =
      (session.debugger.carryOutAll
        ((session.steps count).map fun outcome => .observe outcome.2.2.cpu)).2 := by
  induction count generalizing session with
  | zero => rfl
  | succ count ih => exact ih session.step.2

theorem run_debugger (session : Session β) (budget : Nat) :
    (session.run budget).2.debugger =
      (session.debugger.carryOutAll (session.dealings (.run budget))).2 := by
  rw [run, runFrom_after, after_debugger, ← stepsFrom_eq_steps]
  rfl

theorem serve_debugger (session : Session β) (request : Request β) :
    (session.serve request).2.debugger =
      (session.debugger.carryOutAll (session.dealings request)).2 := by
  cases request with
  | run budget => exact session.run_debugger budget
  | step | observe | processor _ | debugger _ => rfl

theorem serveAll_debugger (session : Session β) (requests : List (Request β)) :
    (session.serveAll requests).2.debugger =
      (session.debugger.carryOutAll (session.trail requests)).2 := by
  induction requests generalizing session with
  | nil => rfl
  | cons request rest ih =>
      have served := session.serve_debugger request
      have later := ih (session.serve request).2
      rw [served] at later
      rw [trail, Dialogue.gather, Debugger.carryOutAll, Dialogue.run_append]
      exact later

end Session

end Nmos6502
