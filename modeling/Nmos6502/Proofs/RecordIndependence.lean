import Nmos6502.Memory.Flat
import Nmos6502.Proofs.Observation
import Nmos6502.Proofs.SessionOperations

/-!
What a breakpoint and a watchpoint can do to the rest of their debugger: nothing. Two debuggers
that differ in their records at one address make the same of everything else that they observe.
-/

namespace Nmos6502

def Event.concerns (address : UInt16) : Event → Bool
  | breakpointHit found .. | conditionFailed _ found .. => found == address
  | watchpointHit _ access .. => access.address == address
  | traceFull _ => false

namespace Debugger

def eventsElsewhere (address : UInt16) (debugger : Debugger) : List Event :=
  debugger.events.toList.filter (!·.concerns address)

/-- Debuggers that differ in nothing but the records at one address and the events that these have
brought up. -/
structure AlikeElsewhere (address : UInt16) (left right : Debugger) : Prop where
  config : left.config = right.config
  active : left.active = right.active
  trace : left.trace = right.trace
  breakpoints : ∀ other, other ≠ address → left.breakpoints[other]? = right.breakpoints[other]?
  watchpoints : ∀ other, other ≠ address → left.watchpoints[other]? = right.watchpoints[other]?
  events : left.eventsElsewhere address = right.eventsElsewhere address

theorem eventsElsewhere_report (address : UInt16) (debugger : Debugger) (event : Event) :
    (debugger.report event).eventsElsewhere address =
      debugger.eventsElsewhere address ++ [event].filter (!·.concerns address) := by
  rw [eventsElsewhere, report, Array.toList_push, List.filter_append, ← eventsElsewhere]

namespace AlikeElsewhere

variable {address : UInt16} {left middle right : Debugger}

theorem refl (address : UInt16) (debugger : Debugger) : AlikeElsewhere address debugger debugger :=
  ⟨rfl, rfl, rfl, fun _ _ => rfl, fun _ _ => rfl, rfl⟩

theorem symm (alike : AlikeElsewhere address left right) : AlikeElsewhere address right left where
  config := alike.config.symm
  active := alike.active.symm
  trace := alike.trace.symm
  breakpoints other elsewhere := (alike.breakpoints other elsewhere).symm
  watchpoints other elsewhere := (alike.watchpoints other elsewhere).symm
  events := alike.events.symm

theorem trans (first : AlikeElsewhere address left middle)
    (second : AlikeElsewhere address middle right) : AlikeElsewhere address left right where
  config := first.config.trans second.config
  active := first.active.trans second.active
  trace := first.trace.trans second.trace
  breakpoints other elsewhere :=
    (first.breakpoints other elsewhere).trans (second.breakpoints other elsewhere)
  watchpoints other elsewhere :=
    (first.watchpoints other elsewhere).trans (second.watchpoints other elsewhere)
  events := first.events.trans second.events

theorem report (alike : AlikeElsewhere address left right) (event : Event) :
    AlikeElsewhere address (left.report event) (right.report event) :=
  { alike with events := by rw [eventsElsewhere_report, eventsElsewhere_report, alike.events] }

theorem reportAny (alike : AlikeElsewhere address left right) (event : Option Event) :
    AlikeElsewhere address (left.reportAny event) (right.reportAny event) := by
  cases event with
  | none => exact alike
  | some event => exact alike.report event

theorem putWatchpoint (alike : AlikeElsewhere address left right) (watched : UInt16)
    (watchpoint : Watchpoint) :
    AlikeElsewhere address (left.putWatchpoint watched watchpoint)
      (right.putWatchpoint watched watchpoint) :=
  { alike with
    watchpoints := fun other elsewhere => by
      simp only [Debugger.putWatchpoint, Std.TreeMap.getElem?_insert,
        alike.watchpoints other elsewhere] }

theorem putBreakpoint (alike : AlikeElsewhere address left right) (broken : UInt16)
    (breakpoint : Breakpoint) :
    AlikeElsewhere address (left.putBreakpoint broken breakpoint)
      (right.putBreakpoint broken breakpoint) :=
  { alike with
    breakpoints := fun other elsewhere => by
      simp only [Debugger.putBreakpoint, Std.TreeMap.getElem?_insert,
        alike.breakpoints other elsewhere] }

theorem dropBreakpoint (alike : AlikeElsewhere address left right) (broken : UInt16) :
    AlikeElsewhere address (left.dropBreakpoint broken) (right.dropBreakpoint broken) :=
  { alike with
    breakpoints := fun other elsewhere => by
      simp only [Debugger.dropBreakpoint, Std.TreeMap.getElem?_erase,
        alike.breakpoints other elsewhere] }

theorem traceInstruction (alike : AlikeElsewhere address left right) (entry : TraceEntry) :
    AlikeElsewhere address (left.traceInstruction entry) (right.traceInstruction entry) := by
  simp only [Debugger.traceInstruction, alike.trace]
  split
  · exact alike
  · rename_i trace _
    have pushed : AlikeElsewhere address { left with trace := some (trace.push entry) }
        { right with trace := some (trace.push entry) } :=
      { alike with trace := rfl }
    split
    · exact pushed.report _
    · exact pushed

theorem takeEvents (alike : AlikeElsewhere address left right) :
    AlikeElsewhere address left.takeEvents.2 right.takeEvents.2 :=
  { alike with events := rfl }

end AlikeElsewhere

/-! What is done at the address goes unnoticed elsewhere. -/

section

variable (address : UInt16) (debugger : Debugger)

theorem putWatchpoint_elsewhere (watchpoint : Watchpoint) :
    AlikeElsewhere address debugger (debugger.putWatchpoint address watchpoint) :=
  { AlikeElsewhere.refl address debugger with
    watchpoints := fun other elsewhere => by
      simp [putWatchpoint, Std.TreeMap.getElem?_insert, elsewhere.symm] }

theorem putBreakpoint_elsewhere (breakpoint : Breakpoint) :
    AlikeElsewhere address debugger (debugger.putBreakpoint address breakpoint) :=
  { AlikeElsewhere.refl address debugger with
    breakpoints := fun other elsewhere => by
      simp [putBreakpoint, Std.TreeMap.getElem?_insert, elsewhere.symm] }

theorem dropBreakpoint_elsewhere :
    AlikeElsewhere address debugger (debugger.dropBreakpoint address) :=
  { AlikeElsewhere.refl address debugger with
    breakpoints := fun other elsewhere => by
      simp [dropBreakpoint, Std.TreeMap.getElem?_erase, elsewhere.symm] }

theorem reportAny_elsewhere {address : UInt16} (debugger : Debugger) {event : Option Event}
    (concerned : ∀ told ∈ event, told.concerns address = true) :
    AlikeElsewhere address debugger (debugger.reportAny event) := by
  cases event with
  | none => exact .refl address debugger
  | some event =>
      have hidden : [event].filter (!·.concerns address) = [] := by simp [concerned event rfl]
      have silent : debugger.eventsElsewhere address =
          (debugger.report event).eventsElsewhere address := by
        rw [eventsElsewhere_report, hidden, List.append_nil]
      exact { AlikeElsewhere.refl address debugger with events := silent }

variable {β : Type}

theorem meetBreakpoint_here (cpu : Cpu β) :
    AlikeElsewhere cpu.registers.programCounter debugger (debugger.meetBreakpoint cpu).1 := by
  simp only [meetBreakpoint]
  split
  · exact .refl _ debugger
  · refine .trans ?_ (reportAny_elsewhere _ (Breakpoint.meet_events ?_ ?_))
    · split
      · exact putBreakpoint_elsewhere _ debugger _
      · exact dropBreakpoint_elsewhere _ debugger
    · exact fun _ _ _ => beq_self_eq_true _
    · exact fun _ _ => beq_self_eq_true _

theorem watchAccess_here_only [Bus β] (cpu : Cpu β) (access : Access) :
    AlikeElsewhere access.address debugger (debugger.watchAccess cpu access).1 := by
  simp only [watchAccess]
  split
  · exact .refl _ debugger
  · refine (putWatchpoint_elsewhere _ debugger _).trans
      (reportAny_elsewhere _ (Watchpoint.notice_events ?_ ?_))
    · exact fun _ _ _ _ => beq_self_eq_true _
    · exact fun _ _ => beq_self_eq_true _

end

/-! What is done elsewhere is the same in both. -/

namespace AlikeElsewhere

variable {β : Type} {address : UInt16} {left right : Debugger}

theorem meetBreakpoint (alike : AlikeElsewhere address left right) (cpu : Cpu β) :
    AlikeElsewhere address (left.meetBreakpoint cpu).1 (right.meetBreakpoint cpu).1 := by
  by_cases here : cpu.registers.programCounter = address
  · subst here
    exact ((left.meetBreakpoint_here cpu).symm.trans alike).trans (right.meetBreakpoint_here cpu)
  · simp only [Debugger.meetBreakpoint, alike.breakpoints _ here]
    split
    · exact alike
    · refine reportAny ?_ _
      split
      · exact alike.putBreakpoint _ _
      · exact alike.dropBreakpoint _

variable [Bus β]

theorem watchAccess (alike : AlikeElsewhere address left right) (cpu : Cpu β) (access : Access) :
    AlikeElsewhere address (left.watchAccess cpu access).1 (right.watchAccess cpu access).1 := by
  by_cases here : access.address = address
  · subst here
    exact ((left.watchAccess_here_only cpu access).symm.trans alike).trans
      (right.watchAccess_here_only cpu access)
  · simp only [Debugger.watchAccess, alike.watchpoints _ here]
    split
    · exact alike
    · exact (alike.putWatchpoint _ _).reportAny _

theorem watchAccesses (alike : AlikeElsewhere address left right) (cpu : Cpu β)
    (log : List Access) :
    AlikeElsewhere address (left.watchAccesses cpu log).1 (right.watchAccesses cpu log).1 := by
  induction log generalizing left right with
  | nil => exact alike
  | cons access rest ih => exact ih (alike.watchAccess cpu access)

theorem lookAround (alike : AlikeElsewhere address left right) (cpu : Cpu β) :
    AlikeElsewhere address (left.lookAround cpu).1 (right.lookAround cpu).1 :=
  (alike.watchAccesses cpu cpu.accesses).meetBreakpoint cpu

/-- Neither the accesses nor the arrival of a step let a record at one address touch another. -/
theorem observe (alike : AlikeElsewhere address left right) (cpu : Cpu β) :
    AlikeElsewhere address (left.observe cpu).1 (right.observe cpu).1 := by
  simp only [Debugger.observe, alike.active]
  split
  · split
    · exact alike
    · exact alike
    · exact alike.lookAround cpu
    · exact (alike.traceInstruction _).lookAround cpu
  · exact alike

end AlikeElsewhere

end Debugger

namespace Session

def Answer.elsewhere (address : UInt16) : Answer → Answer
  | events found => events (found.filter (!·.concerns address))
  | answer => answer

/-- Does not ask for what becomes of the records at the address: a run may stop there, and a
summary counts them. -/
def Operation.Impartial (address : UInt16) : Operation → Prop
  | run _ | summarize => False
  | adjust update => ∀ left right, Debugger.AlikeElsewhere address left right →
      Debugger.AlikeElsewhere address (update left) (update right)
  | processor _ | step | observe | watch .. | takeEvents | dump .. => True

variable {β : Type}

structure AlikeElsewhere (address : UInt16) (left right : Session β) : Prop where
  cpu : left.cpu = right.cpu
  debugger : Debugger.AlikeElsewhere address left.debugger right.debugger

variable [Bus β] {address : UInt16} {left right : Session β}

theorem AlikeElsewhere.carryOut (alike : AlikeElsewhere address left right) {operation : Operation}
    (impartial : operation.Impartial address) :
    (left.carryOut operation).1.elsewhere address =
        (right.carryOut operation).1.elsewhere address ∧
      AlikeElsewhere address (left.carryOut operation).2 (right.carryOut operation).2 := by
  obtain ⟨cpu, leftDebugger⟩ := left
  obtain ⟨other, rightDebugger⟩ := right
  obtain ⟨sameCpu, debuggers⟩ := alike
  have same : cpu = other := sameCpu
  subst same
  cases operation with
  | run budget => exact absurd impartial id
  | summarize => exact absurd impartial id
  | processor operation => exact ⟨rfl, rfl, debuggers⟩
  | step => exact ⟨rfl, rfl, debuggers.observe cpu.step.2⟩
  | observe => exact ⟨rfl, rfl, debuggers.observe cpu⟩
  | watch watched filter condition name => exact ⟨rfl, rfl, debuggers.putWatchpoint watched _⟩
  | adjust update => exact ⟨rfl, rfl, impartial _ _ debuggers⟩
  | takeEvents => exact ⟨congrArg Answer.events debuggers.events, rfl, debuggers.takeEvents⟩
  | dump start length => exact ⟨rfl, rfl, debuggers⟩

/-- Whatever the records at one address are, everything else that is observed stays the same. -/
theorem records_independent (alike : AlikeElsewhere address left right)
    {operations : List Operation}
    (impartial : ∀ operation ∈ operations, operation.Impartial address) :
    (left.carryOutAll operations).1.map (Answer.elsewhere address) =
        (right.carryOutAll operations).1.map (Answer.elsewhere address) ∧
      AlikeElsewhere address (left.carryOutAll operations).2
        (right.carryOutAll operations).2 := by
  induction operations generalizing left right with
  | nil => exact ⟨rfl, alike⟩
  | cons operation rest ih =>
      rw [List.forall_mem_cons] at impartial
      obtain ⟨answer, stillAlike⟩ := alike.carryOut impartial.1
      obtain ⟨answers, finallyAlike⟩ := ih stillAlike impartial.2
      simp only [carryOutAll, Dialogue.run_cons, List.map_cons, answer]
      exact ⟨congrArg _ answers, finallyAlike⟩

def storeLoop : Session FlatMemory :=
  let traced := ({} : Debugger).start.startTrace 1
  let broken := (traced.setBreakpoint 0 none none).2
  { cpu := { memory := FlatMemory.zeroed.load 0 [0x85, 0x10, 0x4C, 0x00, 0x00] }
    debugger := (broken.setWatchpoint 0x0010 .access none none none).2 }

def storeLoopBroken : Session FlatMemory :=
  { storeLoop with debugger := (storeLoop.debugger.setTemporaryBreakpoint 2 none).2 }

theorem storeLoop_records_independent :
    (storeLoop.carryOutAll [.step, .step, .step]).2.debugger.events.size = 4 ∧
      (storeLoopBroken.carryOutAll [.step, .step, .step]).2.debugger.events.size = 5 ∧
      AlikeElsewhere 2 (storeLoop.carryOutAll [.step, .step, .step]).2
        (storeLoopBroken.carryOutAll [.step, .step, .step]).2 := by
  have alike : AlikeElsewhere 2 storeLoop storeLoopBroken :=
    ⟨rfl, storeLoop.debugger.putBreakpoint_elsewhere 2 _⟩
  refine ⟨by decide +kernel, by decide +kernel, (records_independent alike ?_).2⟩
  simp [Operation.Impartial]

end Session

end Nmos6502
