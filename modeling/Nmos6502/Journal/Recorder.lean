import Nmos6502.Journal

/-!
A session that keeps its journal down to some severity, or none at all.
-/

namespace Nmos6502

structure Recorder (β : Type) where
  session : Session β
  level : Option Severity := none
  records : List JournalRecord := []

namespace Recorder

variable {β : Type} [Bus β]

/-- Records are not worked out where none are kept. -/
def keep (recorder : Recorder β) (records : Unit → List JournalRecord) : Recorder β :=
  match recorder.level with
  | some level => { recorder with records := recorder.records ++ (records ()).filter level.keeps }
  | none => recorder

def setCpu (recorder : Recorder β) (cpu : Cpu β) : Recorder β :=
  { recorder with session := { recorder.session with cpu } }

def setDebugger (recorder : Recorder β) (debugger : Debugger) : Recorder β :=
  { recorder with session := { recorder.session with debugger } }

def restart (recorder : Recorder β) (cpu : Cpu β) : Recorder β :=
  (recorder.setCpu cpu).keep fun _ => Journal.ofReset cpu

def create (cpu : Cpu β) (debugger : Debugger) (level : Option Severity) : Recorder β :=
  ({ session := { cpu, debugger }, level } : Recorder β).restart cpu

def step (recorder : Recorder β) : Except StepError Nat × Recorder β :=
  let before := recorder.session.cpu
  let (result, after) := before.step
  (result, (recorder.setCpu after).keep fun _ => Journal.ofStep before after)

def execute (recorder : Recorder β) (budget : Nat) : Except StepError Nat × Recorder β :=
  let before := recorder.session.cpu
  let (result, after) := before.execute budget
  (result, (recorder.setCpu after).keep fun _ => Journal.ofExecution before budget 0)

def moveStack (recorder : Recorder β) (after : Cpu β) : Recorder β :=
  (recorder.setCpu after).keep fun _ => Journal.ofStackWrap recorder.session.cpu after

def startDebugger (recorder : Recorder β) : Recorder β :=
  let before := recorder.session.debugger
  (recorder.setDebugger before.start).keep fun _ => Journal.ofStart before

def stopDebugger (recorder : Recorder β) : Recorder β :=
  (recorder.setDebugger recorder.session.debugger.stop).keep fun _ => Journal.ofStop

def sessionStep (recorder : Recorder β) : Except StepError Nat × Recorder β :=
  let before := recorder.session
  let (result, after) := before.step
  (result, ({ recorder with session := after } : Recorder β).keep fun _ =>
    Journal.ofSessionStep before after)

def run (recorder : Recorder β) (budget : Nat) : Except StepError RunOutcome × Recorder β :=
  let before := recorder.session
  let (result, after) := before.run budget
  (result, ({ recorder with session := after } : Recorder β).keep fun _ =>
    Journal.ofRun before budget 0)

def observe (recorder : Recorder β) : Recorder β :=
  let before := recorder.session
  let after := before.observe
  ({ recorder with session := after } : Recorder β).keep fun _ =>
    Journal.ofObservation before.debugger after.debugger

def takeRecords (recorder : Recorder β) : List JournalRecord × Recorder β :=
  (recorder.records, { recorder with records := [] })

end Recorder

end Nmos6502
