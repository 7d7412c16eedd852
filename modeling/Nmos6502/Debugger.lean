import Std.Data.TreeMap
import Nmos6502.Debugger.Records
import Nmos6502.Debugger.Trace
import Nmos6502.Profile

/-!
A debugger: breakpoints and watchpoints by address, a trace that may be under way, and
the events that wait to be taken. It looks at nothing while it is not active.
-/

namespace Nmos6502

structure DebuggerConfig where
  hotspotLimit : Nat := 10
  traceCapacity : Nat := 1024
  deriving DecidableEq, Repr

structure Debugger where
  config : DebuggerConfig := {}
  active : Bool := false
  breakpoints : Std.TreeMap UInt16 Breakpoint := {}
  watchpoints : Std.TreeMap UInt16 Watchpoint := {}
  trace : Option Trace := none
  spare : TraceStorage := {}
  events : Array Event := #[]

namespace Debugger

/-! Breakpoints. -/

def putBreakpoint (debugger : Debugger) (address : UInt16) (breakpoint : Breakpoint) : Debugger :=
  { debugger with breakpoints := debugger.breakpoints.insert address breakpoint }

def dropBreakpoint (debugger : Debugger) (address : UInt16) : Debugger :=
  { debugger with breakpoints := debugger.breakpoints.erase address }

/-- Answers with the breakpoint that was there before. -/
def setBreakpoint (debugger : Debugger) (address : UInt16) (condition : Option Condition)
    (name : Option String) : Option Breakpoint × Debugger :=
  (debugger.breakpoints[address]?,
    debugger.putBreakpoint address (.create address condition name))

def setTemporaryBreakpoint (debugger : Debugger) (address : UInt16) (name : Option String) :
    Option Breakpoint × Debugger :=
  (debugger.breakpoints[address]?,
    debugger.putBreakpoint address (.createTemporary address name))

def removeBreakpoint (debugger : Debugger) (address : UInt16) : Bool × Debugger :=
  (debugger.breakpoints.contains address, debugger.dropBreakpoint address)

def clearBreakpoints (debugger : Debugger) : Debugger :=
  { debugger with breakpoints := {} }

def enableBreakpoint (debugger : Debugger) (address : UInt16) (enabled : Bool) :
    Bool × Debugger :=
  (debugger.breakpoints.contains address,
    { debugger with
      breakpoints := debugger.breakpoints.modify address fun breakpoint =>
        { breakpoint with enabled } })

/-! Watchpoints. -/

def putWatchpoint (debugger : Debugger) (address : UInt16) (watchpoint : Watchpoint) : Debugger :=
  { debugger with watchpoints := debugger.watchpoints.insert address watchpoint }

def setWatchpoint (debugger : Debugger) (address : UInt16) (filter : AccessFilter)
    (condition : Option Condition) (name : Option String) (seen : Option UInt8) :
    Option Watchpoint × Debugger :=
  (debugger.watchpoints[address]?,
    debugger.putWatchpoint address (.create address filter condition name seen))

def removeWatchpoint (debugger : Debugger) (address : UInt16) : Bool × Debugger :=
  (debugger.watchpoints.contains address,
    { debugger with watchpoints := debugger.watchpoints.erase address })

def clearWatchpoints (debugger : Debugger) : Debugger :=
  { debugger with watchpoints := {} }

def enableWatchpoint (debugger : Debugger) (address : UInt16) (enabled : Bool) :
    Bool × Debugger :=
  (debugger.watchpoints.contains address,
    { debugger with
      watchpoints := debugger.watchpoints.modify address fun watchpoint =>
        { watchpoint with enabled } })

/-! Traces. -/

def recycleTrace (debugger : Debugger) (storage : TraceStorage) : Debugger :=
  if debugger.spare.allocated < storage.allocated then
    { debugger with spare := storage.cleared }
  else debugger

/-- A new trace takes over the storage of the one that is under way, or else the spare one. -/
def startTrace (debugger : Debugger) (capacity : Nat) : Debugger :=
  match debugger.trace with
  | some trace => { debugger with trace := some (.begin trace.toTraceStorage capacity) }
  | none => { debugger with trace := some (.begin debugger.spare capacity), spare := {} }

def startDefaultTrace (debugger : Debugger) : Debugger :=
  debugger.startTrace debugger.config.traceCapacity

def stopTrace (debugger : Debugger) : TraceStorage × Debugger :=
  ((debugger.trace.map Trace.toTraceStorage).getD {}, { debugger with trace := none })

def traceEntries (debugger : Debugger) : List TraceEntry :=
  match debugger.trace with
  | some trace => trace.entries
  | none => []

def profile (debugger : Debugger) : Profile :=
  Profile.ofEntries debugger.traceEntries debugger.config.hotspotLimit

/-! Sessions and events. -/

def start (debugger : Debugger) : Debugger :=
  { debugger with active := true }

/-- Forgets the records and the trace; events still wait to be taken. -/
def stop (debugger : Debugger) : Debugger :=
  let cleared : Debugger :=
    { debugger with active := false, breakpoints := {}, watchpoints := {}, trace := none }
  match debugger.trace with
  | some trace => cleared.recycleTrace trace.toTraceStorage
  | none => cleared

def report (debugger : Debugger) (event : Event) : Debugger :=
  { debugger with events := debugger.events.push event }

def takeEvents (debugger : Debugger) : List Event × Debugger :=
  (debugger.events.toList, { debugger with events := #[] })

section Storage

variable (debugger : Debugger) (storage : TraceStorage) (capacity : Nat)

/-! Only storage is exchanged when it is kept or taken over. -/

theorem recycleTrace_eq : ∃ spare, debugger.recycleTrace storage = { debugger with spare } := by
  simp only [recycleTrace]
  split
  · exact ⟨_, rfl⟩
  · exact ⟨_, rfl⟩

theorem startTrace_eq : ∃ taken spare,
    debugger.startTrace capacity =
      { debugger with trace := some (.begin taken capacity), spare } := by
  simp only [startTrace]
  split
  · exact ⟨_, _, rfl⟩
  · exact ⟨_, _, rfl⟩

theorem stop_eq : ∃ spare,
    debugger.stop =
      { debugger with
        active := false, breakpoints := {}, watchpoints := {}, trace := none, spare } := by
  simp only [stop]
  split
  · exact recycleTrace_eq _ _
  · exact ⟨_, rfl⟩

theorem allocated_le_recycleTrace :
    storage.allocated ≤ (debugger.recycleTrace storage).spare.allocated := by
  simp only [recycleTrace]
  split
  · exact Nat.le_of_eq storage.allocated_cleared.symm
  · omega

/-- Storage that was handed back serves the next trace, however many entries that is offered. -/
theorem recycled_storage_serves (idle : debugger.trace = none) (offered : List TraceEntry) :
    ∃ trace, ((debugger.recycleTrace storage).startTrace capacity).trace = some trace ∧
      storage.allocated ≤ (offered.foldl Trace.push trace).allocated := by
  obtain ⟨spare, kept⟩ := debugger.recycleTrace_eq storage
  have enough := debugger.allocated_le_recycleTrace storage
  rw [kept] at enough ⊢
  refine ⟨.begin spare capacity, by simp only [startTrace, idle], ?_⟩
  calc storage.allocated ≤ spare.allocated := enough
    _ ≤ (Trace.begin spare capacity).allocated := Trace.allocated_le_begin spare capacity
    _ ≤ _ := Trace.allocated_le_foldl_push offered _

end Storage

end Debugger

end Nmos6502
