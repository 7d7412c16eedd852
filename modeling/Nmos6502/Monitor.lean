import Nmos6502.Condition.Parse
import Nmos6502.Dump
import Nmos6502.Memory.Flat
import Nmos6502.Summary

/-!
A front end to a machine with plain memory under an active debugger. Its requests and
answers are addresses, bytes and lines of text.
-/

namespace Nmos6502

inductive RequestError
  | filter (error : UnknownFilter)
  | condition (error : ConditionError)
  | step (error : StepError)

def RequestError.message : RequestError → String
  | filter error => error.message
  | condition error => error.message
  | step error => error.message

structure Monitor where
  session : Session FlatMemory
  /-- The addresses of the program that was loaded last; the end is the first address after
  it. -/
  programStart : UInt16
  programEnd : UInt16

namespace Monitor

def startAddress : UInt16 := 0x0600

def fresh : Monitor where
  session := {
    cpu := Cpu.create (FlatMemory.zeroed.setResetVector startAddress) {}
    debugger := ({} : Debugger).start }
  programStart := startAddress
  programEnd := startAddress

def updateCpu (monitor : Monitor) (update : Cpu FlatMemory → Cpu FlatMemory) : Monitor :=
  { monitor with session := { monitor.session with cpu := update monitor.session.cpu } }

def setDebugger (monitor : Monitor) (debugger : Debugger) : Monitor :=
  { monitor with session := { monitor.session with debugger } }

def updateDebugger (monitor : Monitor) (update : Debugger → Debugger) : Monitor :=
  monitor.setDebugger (update monitor.session.debugger)

def step (monitor : Monitor) : Except RequestError Nat × Monitor :=
  let (result, session) := monitor.session.step
  (result.mapError .step, { monitor with session })

def stopText : StopReason → String
  | .breakpoint address => "breakpoint $" ++ Hex.word address
  | .watchpoint address => "watchpoint $" ++ Hex.word address
  | .halted => "halted"
  | .budgetExhausted => "budget"

def run (monitor : Monitor) (budget : Nat) : Except RequestError String × Monitor :=
  let (result, session) := monitor.session.run budget
  match result with
  | .ok outcome => (.ok (stopText outcome.reason), { monitor with session })
  | .error error => (.error (.step error), { monitor with session })

def reset (monitor : Monitor) : Monitor :=
  monitor.updateCpu Cpu.reset

def requestIrq (monitor : Monitor) : Monitor :=
  monitor.updateCpu Cpu.requestIrq

def requestNmi (monitor : Monitor) : Monitor :=
  monitor.updateCpu Cpu.requestNmi

def jumpTo (monitor : Monitor) (address : UInt16) : Monitor :=
  monitor.updateCpu fun cpu => cpu.jumpTo address

def read (monitor : Monitor) (address : UInt16) : UInt8 :=
  monitor.session.cpu.memory.read address

/-- Past the processor, so that no watchpoint sees it. -/
def write (monitor : Monitor) (address : UInt16) (value : UInt8) : Monitor :=
  monitor.updateCpu fun cpu => { cpu with memory := cpu.memory.write address value }

def readRange (monitor : Monitor) (start : UInt16) (length : Nat) : List UInt8 :=
  (List.range length).map fun offset => monitor.read (start + UInt16.ofNat offset)

def readPage (monitor : Monitor) (page : UInt8) : List UInt8 :=
  monitor.readRange (wordOf 0 page) 256

def load (monitor : Monitor) (address : UInt16) (program : List UInt8) : Monitor :=
  let loaded := monitor.updateCpu fun cpu =>
    ({ cpu with memory := cpu.memory.load address program } : Cpu FlatMemory).jumpTo address
  { loaded with
    programStart := address
    programEnd := address + UInt16.ofNat program.length }

/-- Three bytes are the most that an instruction needs, and there are no more than all. -/
def disassemblyWindow (count : Nat) : Nat :=
  min (3 * count) 0x10000

def disassemble (monitor : Monitor) (start : UInt16) (count : Nat) : List Instruction :=
  (Instruction.disassemble start (monitor.readRange start (disassemblyWindow count))).take count

def readCondition (text : String) : Except RequestError (Option Condition) :=
  if Blank.allBlank text then .ok none
  else
    match Condition.parse text with
    | .ok condition => .ok (some condition)
    | .error error => .error (.condition error)

def setBreakpoint (monitor : Monitor) (address : UInt16) (condition : String) :
    Except RequestError Monitor :=
  match readCondition condition with
  | .error error => .error error
  | .ok condition =>
      .ok (monitor.updateDebugger fun debugger => (debugger.setBreakpoint address condition none).2)

def setTemporaryBreakpoint (monitor : Monitor) (address : UInt16) : Monitor :=
  monitor.updateDebugger fun debugger => (debugger.setTemporaryBreakpoint address none).2

def removeBreakpoint (monitor : Monitor) (address : UInt16) : Bool × Monitor :=
  let (found, debugger) := monitor.session.debugger.removeBreakpoint address
  (found, monitor.setDebugger debugger)

def setWatchpoint (monitor : Monitor) (address : UInt16) (filter condition : String) :
    Except RequestError Monitor :=
  match AccessFilter.parse filter with
  | .error error => .error (.filter error)
  | .ok filter =>
      match readCondition condition with
      | .error error => .error error
      | .ok condition =>
          let session := (monitor.session.setWatchpoint address filter condition none).2
          .ok { monitor with session }

def removeWatchpoint (monitor : Monitor) (address : UInt16) : Bool × Monitor :=
  let (found, debugger) := monitor.session.debugger.removeWatchpoint address
  (found, monitor.setDebugger debugger)

def startTrace (monitor : Monitor) (capacity : Nat) : Monitor :=
  monitor.updateDebugger fun debugger => debugger.startTrace capacity

def traceLine (entry : TraceEntry) : String :=
  let registers := entry.registers
  Hex.word entry.instruction.address ++ "  " ++ Field.padRight entry.disassembly 12 ++
    " A=" ++ Hex.byte registers.a ++ " X=" ++ Hex.byte registers.x ++
    " Y=" ++ Hex.byte registers.y ++ " SP=" ++ Hex.byte registers.stackPointer ++
    " P=" ++ Hex.byte registers.status.pack

def stopTrace (monitor : Monitor) : List String × Monitor :=
  let (storage, stopped) := monitor.session.debugger.stopTrace
  (storage.entries.map traceLine, monitor.setDebugger (stopped.recycleTrace storage))

def takeEvents (monitor : Monitor) : List String × Monitor :=
  let (events, debugger) := monitor.session.debugger.takeEvents
  (events.map Event.text, monitor.setDebugger debugger)

def dump (monitor : Monitor) (start : UInt16) (length : Nat) : String :=
  Dump.text monitor.session.cpu.memory start length

def summaryText (monitor : Monitor) : String :=
  monitor.session.summary.text

end Monitor

end Nmos6502
