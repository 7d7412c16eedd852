import Nmos6502.Dump
import Nmos6502.Proofs.Alike
import Nmos6502.Proofs.Operations
import Nmos6502.Proofs.WatchRecord
import Nmos6502.Summary

/-!
All that a host can ask of a session: what it can ask of the processor, and what it can ask of
the debugger.
-/

namespace Nmos6502.Session

inductive Operation
  | processor (operation : Nmos6502.Operation)
  | step
  | run (budget : Nat)
  | observe
  | watch (address : UInt16) (filter : AccessFilter) (condition : Option Condition)
      (name : Option String)
  /-- Breakpoints, traces, and whatever else takes no look at the processor. -/
  | adjust (update : Debugger → Debugger)
  | takeEvents
  | dump (start : UInt16) (length : Nat)
  | summarize

inductive Answer
  | done
  | processor (answer : Nmos6502.Answer)
  | stepped (result : Except StepError Nat)
  | ran (result : Except StepError RunOutcome)
  | events (events : List Event)
  | text (text : String)
  | summary (summary : Summary)

section

variable {β : Type} [Bus β]

def carryOut (session : Session β) : Operation → Answer × Session β
  | .processor operation =>
      let (answer, cpu) := session.cpu.carryOut operation
      (.processor answer, { session with cpu })
  | .step => (.stepped session.step.1, session.step.2)
  | .run budget => (.ran (session.run budget).1, (session.run budget).2)
  | .observe => (.done, session.observe)
  | .watch address filter condition name => (.done, session.watch address filter condition name)
  | .adjust update => (.done, { session with debugger := update session.debugger })
  | .takeEvents =>
      let (events, debugger) := session.debugger.takeEvents
      (.events events, { session with debugger })
  | .dump start length => (.text (Dump.text session.cpu.memory start length), session)
  | .summarize => (.summary session.summary, session)

def carryOutAll (session : Session β) (operations : List Operation) : List Answer × Session β :=
  Dialogue.run carryOut session operations

end

def onto {β γ : Type} (session : Session β) (memory : γ) : Session γ :=
  { session with cpu := session.cpu.onto memory }

end Nmos6502.Session
