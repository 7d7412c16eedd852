import Nmos6502.Debugger.Trigger
import Nmos6502.Text.Quoted

/-!
Breakpoints and watchpoints: what becomes of a breakpoint when the program counter stands at its
address, which accesses a watchpoint reacts to, and what becomes of it at one.
-/

namespace Nmos6502

structure Breakpoint extends Trigger where
  temporary : Bool := false

namespace Breakpoint

def create (address : UInt16) (condition : Option Condition) (name : Option String) :
    Breakpoint :=
  { name := name.getD ("bp_$" ++ Hex.word address), condition }

def createTemporary (address : UInt16) (name : Option String) : Breakpoint :=
  { create address (some .notYetHit) name with temporary := true }

/-- The breakpoint after a step that led to its address, unless that removed it, and what
there is to report. A condition is reported only the first time it fails. -/
def meet (breakpoint : Breakpoint) (address : UInt16) (registers : Registers)
    (counters : Counters) : Option Breakpoint × Option Event :=
  if breakpoint.enabled then
    match breakpoint.decide registers none with
    | .ok true =>
        let hit := { breakpoint with toTrigger := breakpoint.countHit counters }
        (if hit.temporary then none else some hit,
          some (.breakpointHit address hit.name hit.hits hit.temporary))
    | .ok false => (some breakpoint, none)
    | .error error =>
        if breakpoint.failed then (some breakpoint, none)
        else
          (some { breakpoint with toTrigger := breakpoint.fail },
            some (.conditionFailed .breakpoint address breakpoint.name error))
  else (some breakpoint, none)

end Breakpoint

inductive AccessFilter
  | read
  /-- Writes that leave another value than the one last seen. -/
  | write
  | both
  | access
  deriving DecidableEq, Repr

structure UnknownFilter where
  name : String
  deriving DecidableEq, Repr

def UnknownFilter.message (error : UnknownFilter) : String :=
  "unknown access type " ++ Quoted.quote error.name

namespace AccessFilter

instance : Inhabited AccessFilter := ⟨both⟩

def all : List AccessFilter := [read, write, both, access]

def text : AccessFilter → String
  | read => "read"
  | write => "write"
  | both => "both"
  | access => "access"

def names : AccessFilter → List String
  | read => ["r", "read"]
  | write => ["w", "write"]
  | both => ["rw", "both"]
  | access => ["a", "access", "any"]

def parse (name : String) : Except UnknownFilter AccessFilter :=
  match all.find? fun filter => filter.names.contains name.toLower with
  | some filter => .ok filter
  | none => .error ⟨name⟩

def admits : AccessFilter → AccessKind → (changed : Bool) → Bool
  | read, .read, _ | both, .read, _ | access, _, _ => true
  | write, .write, changed | both, .write, changed => changed
  | write, .read, _ | read, .write, _ => false

end AccessFilter

structure Watchpoint extends Trigger where
  filter : AccessFilter
  /-- The value at the last hit, or before any hit at the start; none if there was none to
  be seen. -/
  lastValue : Option UInt8

namespace Watchpoint

def create (address : UInt16) (filter : AccessFilter) (condition : Option Condition)
    (name : Option String) (seen : Option UInt8) : Watchpoint :=
  { name := name.getD ("wp_$" ++ Hex.word address), condition, filter, lastValue := seen }

def notice (watchpoint : Watchpoint) (access : Access) (seen : Option UInt8)
    (registers : Registers) (counters : Counters) : Watchpoint × Option Event :=
  if watchpoint.enabled && watchpoint.filter.admits access.kind (seen != watchpoint.lastValue) then
    match watchpoint.decide registers watchpoint.lastValue with
    | .ok true =>
        let hit := { watchpoint with
          toTrigger := watchpoint.countHit counters
          lastValue := seen.or watchpoint.lastValue }
        (hit, some (.watchpointHit hit.name access (seen.getD access.value) watchpoint.lastValue
          hit.hits))
    | .ok false => (watchpoint, none)
    | .error error =>
        if watchpoint.failed then (watchpoint, none)
        else
          ({ watchpoint with toTrigger := watchpoint.fail },
            some (.conditionFailed .watchpoint access.address watchpoint.name error))
  else (watchpoint, none)

end Watchpoint

end Nmos6502
