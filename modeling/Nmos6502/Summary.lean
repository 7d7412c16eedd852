import Nmos6502.Session

/-!
The state of a session at a glance.
-/

namespace Nmos6502

structure Summary where
  registers : Registers
  counters : Counters
  halted : Bool
  nmiPending : Bool
  irqPending : Bool
  lastMnemonic : Option Mnemonic
  stackWraps : Nat
  lastStackWrap : Option StackWrap
  active : Bool
  tracing : Bool
  breakpoints : List (UInt16 × Breakpoint)
  watchpoints : List (UInt16 × Watchpoint)
  profile : Profile

def Session.summary {β : Type} [Bus β] (session : Session β) : Summary where
  registers := session.cpu.registers
  counters := session.cpu.counters
  halted := session.cpu.halted
  nmiPending := session.cpu.nmiRequested
  irqPending := session.cpu.irqPending
  lastMnemonic := session.cpu.lastInstruction.map ExecutedInstruction.mnemonic
  stackWraps := session.cpu.stackWraps
  lastStackWrap := session.cpu.lastStackWrap
  active := session.debugger.active
  tracing := session.debugger.trace.isSome
  breakpoints := session.debugger.breakpoints.toList
  watchpoints := session.debugger.watchpoints.toList
  profile := session.debugger.profile

namespace Summary

def hitsText (trigger : Trigger) : String :=
  "hits=" ++ toString trigger.hits ++ (if trigger.enabled then "" else " (disabled)")

def breakpointText (entry : UInt16 × Breakpoint) : String :=
  "break " ++ entry.2.name ++ " $" ++ Hex.word entry.1 ++ " " ++ hitsText entry.2.toTrigger

def watchpointText (entry : UInt16 × Watchpoint) : String :=
  "watch " ++ entry.2.name ++ " $" ++ Hex.word entry.1 ++ " " ++ entry.2.filter.text ++ " " ++
    hitsText entry.2.toTrigger

def truth (value : Bool) : String :=
  if value then "true" else "false"

def lines (summary : Summary) : List String :=
  [summary.registers.text,
   "cycles=" ++ toString summary.counters.cycles ++ " instructions=" ++
     toString summary.counters.instructions ++ " last=" ++
     (summary.lastMnemonic.map Mnemonic.text).getD "-",
   "halted=" ++ truth summary.halted ++ " nmi=" ++ truth summary.nmiPending ++ " irq=" ++
     truth summary.irqPending ++ " stack_wraps=" ++ toString summary.stackWraps] ++
  summary.breakpoints.map breakpointText ++
  summary.watchpoints.map watchpointText ++
  ["profile: " ++ toString summary.profile.instructions ++ " instructions, " ++
     toString summary.profile.cycles ++ " cycles, " ++ summary.profile.averageText ++
     " cycles/instruction"]

def text (summary : Summary) : String :=
  "\n".intercalate summary.lines

end Summary

end Nmos6502
