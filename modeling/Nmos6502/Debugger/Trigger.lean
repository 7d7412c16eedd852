import Nmos6502.Condition
import Nmos6502.Cpu

/-!
What breakpoints and watchpoints have in common (a name, a switch, a condition, and an account of
the hits so far), and the events that a debugger has to report.
-/

namespace Nmos6502

structure Trigger where
  name : String
  enabled : Bool := true
  condition : Option Condition := none
  hits : Nat := 0
  lastHit : Option Counters := none
  failed : Bool := false

namespace Trigger

def decide (trigger : Trigger) (registers : Registers) (lastValue : Option UInt8) :
    Except ConditionError Bool :=
  match trigger.condition with
  | some condition => condition.evaluate { registers, hitCount := trigger.hits, lastValue }
  | none => .ok true

def countHit (trigger : Trigger) (counters : Counters) : Trigger :=
  { trigger with hits := trigger.hits + 1, lastHit := some counters }

def fail (trigger : Trigger) : Trigger :=
  { trigger with failed := true }

end Trigger

inductive TriggerKind
  | breakpoint
  | watchpoint
  deriving DecidableEq, Repr

inductive Event
  | breakpointHit (address : UInt16) (name : String) (hits : Nat) (removed : Bool)
  /-- The value is what the access left to be seen, the previous one what was seen before. -/
  | watchpointHit (name : String) (access : Access) (value : UInt8) (previous : Option UInt8)
      (hits : Nat)
  | conditionFailed (kind : TriggerKind) (address : UInt16) (name : String)
      (error : ConditionError)
  | traceFull (capacity : Nat)
  deriving DecidableEq, Repr

def TriggerKind.text : TriggerKind → String
  | breakpoint => "breakpoint"
  | watchpoint => "watchpoint"

def AccessKind.text : AccessKind → String
  | read => "read"
  | write => "write"

namespace Event

def text : Event → String
  | breakpointHit address name hits _ =>
      "breakpoint " ++ name ++ " hit at $" ++ Hex.word address ++ " (" ++ toString hits ++ " hits)"
  | watchpointHit name access value _ _ =>
      "watchpoint " ++ name ++ ": " ++ access.kind.text ++ " $" ++ Hex.byte value ++ " at $" ++
        Hex.word access.address
  | conditionFailed kind address _ error =>
      kind.text ++ " at $" ++ Hex.word address ++ ": condition error: " ++ error.message
  | traceFull capacity => "trace full at " ++ toString capacity ++ " entries"

def isHit : Event → Bool
  | breakpointHit .. | watchpointHit .. => true
  | conditionFailed .. | traceFull _ => false

end Event

end Nmos6502
