import Nmos6502.Debugger

/-!
What a debugger makes of a step that has been taken. An instruction goes into the trace;
after an instruction or an interrupt entry the watchpoints look at the accesses, in order,
and then the breakpoint at the program counter is met.
-/

namespace Nmos6502

structure Sighting where
  breakpoint : Option UInt16 := none
  watchpoint : Option UInt16 := none
  deriving DecidableEq, Repr

namespace Debugger

variable {β : Type} [Bus β]

def traceInstruction (debugger : Debugger) (entry : TraceEntry) : Debugger :=
  match debugger.trace with
  | none => debugger
  | some trace =>
      let pushed := { debugger with trace := some (trace.push entry) }
      if trace.fillsUp then pushed.report (.traceFull trace.capacity) else pushed

def reportAny (debugger : Debugger) : Option Event → Debugger
  | some event => debugger.report event
  | none => debugger

/-- The value that an access has left to be seen: what was read, or what memory holds after
a write. -/
def valueSeen (cpu : Cpu β) (access : Access) : Option UInt8 :=
  match access.kind with
  | .read => some access.value
  | .write => Bus.peek cpu.memory access.address

def watchAccess (debugger : Debugger) (cpu : Cpu β) (access : Access) : Debugger × Bool :=
  match debugger.watchpoints[access.address]? with
  | none => (debugger, false)
  | some watchpoint =>
      let (noticed, event) :=
        watchpoint.notice access (valueSeen cpu access) cpu.registers cpu.counters
      ((debugger.putWatchpoint access.address noticed).reportAny event, event.any Event.isHit)

def watchAccesses (debugger : Debugger) (cpu : Cpu β) : List Access → Debugger × Option UInt16
  | [] => (debugger, none)
  | access :: rest =>
      let (watched, hit) := debugger.watchAccess cpu access
      let (finished, later) := watched.watchAccesses cpu rest
      (finished, if hit then some access.address else later)

def meetBreakpoint (debugger : Debugger) (cpu : Cpu β) : Debugger × Option UInt16 :=
  let address := cpu.registers.programCounter
  match debugger.breakpoints[address]? with
  | none => (debugger, none)
  | some breakpoint =>
      let (met, event) := breakpoint.meet address cpu.registers cpu.counters
      let updated := match met with
        | some kept => debugger.putBreakpoint address kept
        | none => debugger.dropBreakpoint address
      (updated.reportAny event, if event.any Event.isHit then some address else none)

def lookAround (debugger : Debugger) (cpu : Cpu β) : Debugger × Sighting :=
  let (watched, watchpoint) := debugger.watchAccesses cpu cpu.accesses
  let (finished, breakpoint) := watched.meetBreakpoint cpu
  (finished, { breakpoint, watchpoint })

def observe (debugger : Debugger) (cpu : Cpu β) : Debugger × Sighting :=
  if debugger.active then
    match cpu.lastStep with
    | .nothing | .halted => (debugger, {})
    | .interrupt _ => debugger.lookAround cpu
    | .executed instruction =>
        (debugger.traceInstruction ⟨instruction, cpu.registers⟩).lookAround cpu
  else (debugger, {})

end Debugger

end Nmos6502
