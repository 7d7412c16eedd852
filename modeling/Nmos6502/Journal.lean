import Nmos6502.Session

/-!
What a session writes into its log. Nothing is kept for it while the session goes on: the
records of a step follow from the processor before and after it, those of an observation
from the events that it added.
-/

namespace Nmos6502

inductive Severity
  | warning
  | debug
  | trace
  deriving DecidableEq, Repr

structure JournalRecord where
  severity : Severity
  message : String
  deriving DecidableEq, Repr

namespace Severity

def rank : Severity → Nat
  | warning => 0
  | debug => 1
  | trace => 2

def text : Severity → String
  | warning => "WARN"
  | debug => "DEBUG"
  | trace => "TRACE"

def keeps (severity : Severity) (record : JournalRecord) : Bool :=
  record.severity.rank ≤ severity.rank

end Severity

def JournalRecord.text (record : JournalRecord) : String :=
  record.severity.text ++ " " ++ record.message

namespace Journal

variable {β : Type} [Bus β]

def address (address : UInt16) : String := "0x" ++ Hex.word address

def byte (value : UInt8) : String := "0x" ++ Hex.byte value

def ofReset (cpu : Cpu β) : List JournalRecord :=
  [⟨.debug, "reset: PC=" ++ address cpu.registers.programCounter⟩]

def wrapText : WrapKind → String
  | .overflow => "wrapped below 0x00"
  | .underflow => "wrapped above 0xFF"

/-- A push or pull, of a word too, wraps the stack pointer once at most. -/
def ofStackWrap (before after : Cpu β) : List JournalRecord :=
  if before.stackWraps < after.stackWraps then
    match after.lastStackWrap with
    | some wrap =>
        [⟨.warning, "stack pointer " ++ wrapText wrap.kind ++ " at " ++
          address wrap.origin.programCounter⟩]
    | none => []
  else []

def ofEntry (source : Interrupt) (returnAddress handler : UInt16) : JournalRecord :=
  ⟨.debug, source.text ++ " from " ++ address returnAddress ++ " to " ++ address handler⟩

def ofInstruction (before after : Cpu β) (instruction : ExecutedInstruction) :
    List JournalRecord :=
  let place := address instruction.address
  let illegal :=
    if instruction.mnemonic = .illegal then
      [⟨.debug, "illegal opcode " ++ byte instruction.opcode ++ " at " ++ place ++
        " executed as NOP"⟩]
    else []
  let entry :=
    if instruction.mnemonic = .brk then
      [ofEntry .brk (instruction.address + 2) after.registers.programCounter]
    else []
  let done : JournalRecord := ⟨.trace, place ++ " " ++ instruction.mnemonic.text ++ " (" ++
    toString instruction.cycles ++ " cycles)"⟩
  illegal ++ ofStackWrap before after ++ entry ++ [done]

def ofStep (before after : Cpu β) : List JournalRecord :=
  match after.lastStep with
  | .nothing => []
  | .halted =>
      if before.halted then []
      else
        [⟨.warning, "halting on illegal opcode " ++ byte before.opcodeByte ++ " at " ++
          address before.registers.programCounter⟩]
  | .interrupt source =>
      ofStackWrap before after ++
        [ofEntry source before.registers.programCounter after.registers.programCounter]
  | .executed instruction => ofInstruction before after instruction

def accessWord : AccessKind → String
  | .read => "Read"
  | .write => "Write"

def ofEvent : Event → JournalRecord
  | .breakpointHit place name hits _ =>
      ⟨.debug, "breakpoint " ++ name ++ " hit at " ++ address place ++ " (" ++ toString hits ++
        " hits)"⟩
  | .watchpointHit name access _ _ _ =>
      ⟨.debug, "watchpoint " ++ name ++ " hit: " ++ accessWord access.kind ++ " " ++
        byte access.value ++ " at " ++ address access.address⟩
  | .conditionFailed kind _ name error =>
      ⟨.warning, kind.text ++ " " ++ name ++ " condition failed: " ++ error.message⟩
  | .traceFull capacity =>
      ⟨.warning, "trace buffer full at " ++ toString capacity ++
        " entries, further instructions are not recorded"⟩

def ofObservation (before after : Debugger) : List JournalRecord :=
  (after.events.toList.drop before.events.size).map ofEvent

def ofStart (before : Debugger) : List JournalRecord :=
  if before.active then [] else [⟨.debug, "debugging session started"⟩]

def ofStop : List JournalRecord :=
  [⟨.debug, "debugging session stopped"⟩]

def ofSessionStep (before after : Session β) : List JournalRecord :=
  ofStep before.cpu after.cpu ++ ofObservation before.debugger after.debugger

def ofExecution (cpu : Cpu β) (budget consumed : Nat) : List JournalRecord :=
  if running : consumed < budget ∧ cpu.halted = false then
    match stepped : cpu.step with
    | (.error _, after) => ofStep cpu after
    | (.ok cycles, after) =>
        have := Cpu.step_cycles_pos cpu after cycles running.2 stepped
        ofStep cpu after ++ ofExecution after budget (consumed + cycles)
  else []
termination_by budget - consumed

def ofRun (session : Session β) (budget consumed : Nat) : List JournalRecord :=
  if running : consumed < budget ∧ session.cpu.halted = false then
    match stepped : session.stepSighted with
    | (.error _, _, after) => ofSessionStep session after
    | (.ok cycles, sighting, after) =>
        have : 0 < cycles := Session.stepSighted_cycles_pos session after sighting cycles running.2
          stepped
        ofSessionStep session after ++
          (if (Session.stopReason? sighting).isSome then []
            else ofRun after budget (consumed + cycles))
  else []
termination_by budget - consumed

end Journal

end Nmos6502
