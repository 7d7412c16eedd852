import Nmos6502.Proofs.FirstStop
import Nmos6502.Proofs.InstructionFlow
import Nmos6502.Proofs.SessionOperations

/-!
A trace over the window in which it is under way: which steps have something to offer to it, what
it has taken of that, and when it tells that it is full.
-/

namespace Nmos6502

namespace Trace

/-- What a trace of some capacity has become when a number of entries have been offered to it. -/
structure Holds (capacity : Nat) (offered : List TraceEntry) (trace : Trace) : Prop where
  limit : trace.capacity = capacity
  entries : trace.entries = offered.take capacity
  room : trace.room = capacity - offered.length
  full : trace.full = decide (capacity < offered.length)

theorem holds_begin (storage : TraceStorage) (capacity : Nat) :
    Holds capacity [] (begin storage capacity) :=
  ⟨rfl, (entries_begin storage capacity).trans List.take_nil.symm, rfl, rfl⟩

theorem Holds.push {capacity : Nat} {offered : List TraceEntry} {trace : Trace}
    (holds : Holds capacity offered trace) (entry : TraceEntry) :
    Holds capacity (offered ++ [entry]) (trace.push entry) := by
  -- Without room an entry changes nothing but the mark that one was refused.
  rcases room : trace.room with _ | left
  · have enough : capacity ≤ offered.length := by
      have known := holds.room
      omega
    have pushed : trace.push entry = { trace with full := true } := by
      simp only [Trace.push, room]
    rw [pushed]
    refine ⟨holds.limit, ?_, ?_, ?_⟩
    · rw [List.take_append_of_le_length enough]
      exact holds.entries
    · rw [holds.room, List.length_append]
      omega
    · simp only [List.length_append, List.length_singleton]
      exact (decide_eq_true (by omega)).symm
  · have short : offered.length < capacity := by
      have known := holds.room
      omega
    refine ⟨?_, ?_, ?_, ?_⟩
    · simp only [Trace.push, room]
      exact holds.limit
    · rw [entries_push, if_neg (by omega), holds.entries,
        List.take_of_length_le (by omega), List.take_of_length_le (by simp; omega)]
    · simp only [Trace.push, room, List.length_append, List.length_singleton]
      have known := holds.room
      omega
    · simp only [Trace.push, room, List.length_append, List.length_singleton, holds.full]
      exact decide_eq_decide.mpr (by omega)

theorem Holds.fillsUp_eq {capacity : Nat} {offered : List TraceEntry} {trace : Trace}
    (holds : Holds capacity offered trace) :
    trace.fillsUp = decide (offered.length = capacity) := by
  rw [fillsUp, holds.full, holds.room, Bool.eq_iff_iff]
  simp only [Bool.and_eq_true, Bool.not_eq_true', decide_eq_false_iff_not, beq_iff_eq,
    decide_eq_true_eq]
  omega

end Trace

def Event.full? : Event → Option Nat
  | traceFull capacity => some capacity
  | breakpointHit .. | watchpointHit .. | conditionFailed .. => none

theorem Breakpoint.meet_full (breakpoint : Breakpoint) (address : UInt16) (registers : Registers)
    (counters : Counters) :
    (breakpoint.meet address registers counters).2.bind Event.full? = none :=
  Option.bind_eq_none_iff.mpr (meet_events (fun _ _ _ => rfl) fun _ _ => rfl)

theorem Watchpoint.notice_full (watchpoint : Watchpoint) (access : Access) (seen : Option UInt8)
    (registers : Registers) (counters : Counters) :
    (watchpoint.notice access seen registers counters).2.bind Event.full? = none :=
  Option.bind_eq_none_iff.mpr (notice_events (fun _ _ _ _ => rfl) fun _ _ => rfl)

theorem StepRecord.executed_of_executed? {record : StepRecord} {instruction : ExecutedInstruction}
    (executed : record.executed? = some instruction) : record = .executed instruction := by
  cases record <;> simp_all [executed?]

namespace Cpu

variable {β : Type} [Bus β]

def offering? (cpu : Cpu β) : Option TraceEntry :=
  cpu.step.2.lastStep.executed?.map fun instruction => ⟨instruction, cpu.step.2.registers⟩

/-- Which steps have something to offer to a trace. An instruction with which the bus finds fault
does like any other. -/
structure Offers (cpu : Cpu β) : Prop where
  halted : cpu.halted = true → cpu.offering? = none
  interrupt : ∀ source, cpu.halted = false → cpu.dueInterrupt = some source →
    cpu.offering? = none
  illegal : ∀ opcode address, cpu.step.1 = .error (.illegalOpcode opcode address) →
    cpu.offering? = none
  executed : cpu.halted = false → cpu.dueInterrupt = none → cpu.meetsIllegalOpcode = false →
    cpu.offering? = some ⟨cpu.nextInstruction, cpu.step.2.registers⟩
  busFault : ∀ fault, cpu.step.1 = .error (.bus fault) → cpu.dueInterrupt = none →
    cpu.offering? = some ⟨cpu.nextInstruction, cpu.step.2.registers⟩

theorem offering?_of_executed {cpu : Cpu β} (running : cpu.halted = false)
    (free : cpu.dueInterrupt = none) (legal : cpu.meetsIllegalOpcode = false) :
    cpu.offering? = some ⟨cpu.nextInstruction, cpu.step.2.registers⟩ := by
  have last : cpu.step.2.lastStep = .executed cpu.nextInstruction := by
    simp only [step, running, free, legal, Bool.false_eq_true, if_false, settle_lastStep]
    rfl
  rw [offering?, last]
  rfl

theorem offers (cpu : Cpu β) : cpu.Offers := by
  constructor
  · intro halted
    rw [offering?, step, if_pos halted]
    rfl
  · intro source running due
    rw [offering?]
    simp only [step, running, due, Bool.false_eq_true, if_false, settle_lastStep]
    rfl
  · intro opcode address failed
    rw [offering?, (cpu.charged.illegalOpcode opcode address failed).2]
    rfl
  · exact offering?_of_executed
  · intro fault failed free
    rcases cpu.step_cases with ⟨_, stepped⟩ | ⟨source, _, due, _⟩ | ⟨_, _, _, stepped⟩ |
      ⟨running, _, legal, _⟩
    · simp [stepped] at failed
    · simp [free] at due
    · simp [stepped] at failed
    · exact offering?_of_executed running free legal

end Cpu

namespace Debugger

variable {β : Type} [Bus β]

theorem observe_trace_unexecuted (debugger : Debugger) {cpu : Cpu β}
    (unexecuted : cpu.lastStep.executed? = none) :
    (debugger.observe cpu).1.trace = debugger.trace := by
  rw [observe_eq]
  split
  · rw [lookAround, meetBreakpoint_trace, watchAccesses_trace, traced]
    split
    · rename_i last
      simp [StepRecord.executed?, last] at unexecuted
    all_goals rfl
  · rfl

theorem lookEvents_full (debugger : Debugger) (cpu : Cpu β) :
    (debugger.lookEvents cpu).filterMap Event.full? = [] := by
  have silent : (debugger.arrivalEvent? cpu).bind Event.full? = none := by
    rw [arrivalEvent?, Option.bind_assoc]
    exact Option.bind_eq_none_iff.mpr fun breakpoint _ => breakpoint.meet_full _ _ _
  rw [lookEvents, List.filterMap_append, filterMap_toList, silent,
    debugger.filterMap_accessEvents cpu cpu.accesses Watchpoint.notice_full]
  rfl

theorem observedEvents_full {debugger : Debugger} {cpu : Cpu β} {capacity : Nat}
    {offered : List TraceEntry} {trace : Trace} (active : debugger.active = true)
    (underWay : debugger.trace = some trace) (holds : trace.Holds capacity offered) :
    (debugger.observedEvents cpu).filterMap Event.full? =
      if cpu.lastStep.executed?.isSome ∧ offered.length = capacity then [capacity] else [] := by
  rw [observedEvents]
  rcases last : cpu.lastStep with _ | instruction | source | _
  · simp [looksAt, last, StepRecord.executed?]
  · simp only [looksAt, last, active, Bool.and_self, if_true, List.filterMap_append,
      lookEvents_full, List.append_nil, tracedEvents, underWay, holds.fillsUp_eq, holds.limit,
      StepRecord.executed?, Option.isSome_some, true_and, decide_eq_true_eq]
    split <;> rfl
  · simp [looksAt, last, active, lookEvents_full, tracedEvents, StepRecord.executed?]
  · simp [looksAt, last, StepRecord.executed?]

end Debugger

/-! What becomes of a trace. -/

namespace Session

variable {β : Type}

/-- Leaves the trace to the steps, and has each of them observed once. -/
def Operation.LeavesTrace : Operation → Prop
  | processor operation => operation.takesStep = false
  | observe => False
  | adjust update => ∀ debugger, (update debugger).trace = debugger.trace ∧
      (update debugger).active = debugger.active ∧ (update debugger).events = debugger.events
  | step | run _ | watch .. | takeEvents | dump .. | summarize => True

def Answer.taken : Answer → List Event
  | events found => found
  | done | processor _ | stepped _ | ran _ | text _ | summary _ => []

/-- A trace of some capacity is under way, to which a number of entries have been offered. It has
been reported to be full if it has been, after `earlier` ones and among the events that were taken
and those that still wait. -/
structure Tracing (capacity : Nat) (earlier : List Nat) (offered : List TraceEntry)
    (taken : List Event) (session : Session β) : Prop where
  active : session.debugger.active = true
  trace : ∃ trace, session.debugger.trace = some trace ∧ trace.Holds capacity offered
  reported : (taken ++ session.debugger.events.toList).filterMap Event.full? =
    earlier ++ if capacity < offered.length then [capacity] else []

namespace Tracing

variable {capacity : Nat} {earlier : List Nat} {offered : List TraceEntry} {taken : List Event}
  {session : Session β}

theorem untouched (tracing : Tracing capacity earlier offered taken session)
    {other : Session β} (trace : other.debugger.trace = session.debugger.trace)
    (active : other.debugger.active = session.debugger.active)
    (events : other.debugger.events = session.debugger.events) :
    Tracing capacity earlier (offered ++ []) (taken ++ []) other := by
  rw [List.append_nil, List.append_nil]
  refine ⟨active.trans tracing.active, ?_, ?_⟩
  · rw [trace]
    exact tracing.trace
  · rw [events]
    exact tracing.reported

theorem takeEvents (tracing : Tracing capacity earlier offered taken session) :
    Tracing capacity earlier (offered ++ []) (taken ++ session.debugger.events.toList)
      { session with debugger := session.debugger.takeEvents.2 } := by
  rw [List.append_nil]
  refine ⟨tracing.active, tracing.trace, ?_⟩
  exact (congrArg _ (List.append_nil _)).trans tracing.reported

end Tracing

variable [Bus β]

def starts (session : Session β) : Nat → List (Session β)
  | 0 => []
  | count + 1 => session :: session.step.2.starts count

def stepCount (session : Session β) : Operation → Nat
  | .step => 1
  | .run budget => (session.stepsFrom budget 0).length
  | _ => 0

def startsIn (session : Session β) (operations : List Operation) : List (Session β) :=
  Dialogue.gather carryOut (fun reached operation => reached.starts (reached.stepCount operation))
    session operations

def entries (reached : List (Session β)) : List TraceEntry :=
  reached.filterMap fun session => session.cpu.offering?

theorem entries_cons (session : Session β) (rest : List (Session β)) :
    entries (session :: rest) = session.cpu.offering?.toList ++ entries rest := by
  simp only [entries, List.filterMap_cons]
  cases session.cpu.offering? <;> rfl

theorem entries_append (first rest : List (Session β)) :
    entries (first ++ rest) = entries first ++ entries rest :=
  List.filterMap_append

namespace Tracing

variable {capacity : Nat} {earlier : List Nat} {offered : List TraceEntry} {taken : List Event}
  {session : Session β}

theorem stepEvents_full (tracing : Tracing capacity earlier offered taken session) :
    session.stepEvents.filterMap Event.full? =
      if session.cpu.offering?.isSome ∧ offered.length = capacity then [capacity] else [] := by
  obtain ⟨trace, underWay, holds⟩ := tracing.trace
  rw [stepEvents_eq, Debugger.observedEvents_full tracing.active underWay holds, Cpu.offering?,
    Option.isSome_map]

theorem step (tracing : Tracing capacity earlier offered taken session) :
    Tracing capacity earlier (offered ++ session.cpu.offering?.toList) taken session.step.2 := by
  have queued : session.step.2.debugger.events.toList =
      session.debugger.events.toList ++ session.stepEvents := by
    rw [stepEvents_eq]
    exact session.debugger.observe_queues session.cpu.step.2
  have full := tracing.stepEvents_full
  obtain ⟨active, ⟨trace, underWay, holds⟩, reported⟩ := tracing
  refine ⟨(session.debugger.observe_active _).trans active, ?_, ?_⟩
  · rcases executed : session.cpu.step.2.lastStep.executed? with _ | instruction
    · have kept := session.debugger.observe_trace_unexecuted executed
      simp only [Cpu.offering?, executed, Option.map_none, Option.toList_none, List.append_nil]
      exact ⟨trace, kept.trans underWay, holds⟩
    · have last : session.cpu.step.2.lastStep = .executed instruction :=
        StepRecord.executed_of_executed? executed
      simp only [Cpu.offering?, executed, Option.map_some, Option.toList_some]
      exact ⟨_, Debugger.observe_trace active underWay last, holds.push _⟩
  · rw [queued, ← List.append_assoc, List.filterMap_append, reported, full]
    rcases session.cpu.offering? with _ | entry
    · simp
    · -- The first entry without room is the one that brings the offered ones past the capacity.
      simp only [Option.isSome_some, true_and, Option.toList_some, List.length_append,
        List.length_singleton, List.append_assoc, List.append_cancel_left_eq]
      split <;> split <;> split <;> first | rfl | omega

theorem after (tracing : Tracing capacity earlier offered taken session) (count : Nat) :
    Tracing capacity earlier (offered ++ entries (session.starts count)) taken
      (session.after count) := by
  induction count generalizing session offered with
  | zero => simpa [Session.starts, Session.after, entries] using tracing
  | succ count ih =>
      have further := ih tracing.step
      rw [List.append_assoc, ← entries_cons] at further
      exact further

theorem carryOut (tracing : Tracing capacity earlier offered taken session)
    {operation : Operation} (leaves : operation.LeavesTrace) :
    Tracing capacity earlier (offered ++ entries (session.starts (session.stepCount operation)))
      (taken ++ (session.carryOut operation).1.taken) (session.carryOut operation).2 := by
  cases operation with
  | observe => exact absurd leaves id
  | step =>
      have stepped := tracing.after 1
      rw [← List.append_nil taken] at stepped
      exact stepped
  | run budget =>
      have ran := tracing.after (session.stepsFrom budget 0).length
      rw [← runFrom_after, ← List.append_nil taken] at ran
      exact ran
  | takeEvents => exact tracing.takeEvents
  | adjust update =>
      obtain ⟨trace, active, events⟩ := leaves session.debugger
      exact tracing.untouched trace active events
  | processor _ | watch _ _ _ _ | dump _ _ | summarize => exact tracing.untouched rfl rfl rfl

theorem carryOutAll (tracing : Tracing capacity earlier offered taken session)
    {operations : List Operation} (leaves : ∀ operation ∈ operations, operation.LeavesTrace) :
    Tracing capacity earlier (offered ++ entries (session.startsIn operations))
      (taken ++ (session.carryOutAll operations).1.flatMap Answer.taken)
      (session.carryOutAll operations).2 := by
  induction operations generalizing session offered taken with
  | nil => exact tracing.untouched rfl rfl rfl
  | cons operation rest ih =>
      rw [List.forall_mem_cons] at leaves
      have finished := ih (tracing.carryOut leaves.1) leaves.2
      rw [List.append_assoc, List.append_assoc, ← entries_append, ← List.flatMap_cons] at finished
      exact finished

/-- Each of the sessions from which steps are taken finds what was offered up to there. -/
theorem starts_reached (tracing : Tracing capacity earlier offered taken session) {count : Nat}
    {before later : List (Session β)} {reached : Session β}
    (split : session.starts count = before ++ reached :: later) :
    Tracing capacity earlier (offered ++ entries before) taken reached := by
  induction before generalizing session offered count with
  | nil =>
      cases count with
      | zero => simp [starts] at split
      | succ count =>
          obtain ⟨rfl, -⟩ := List.cons.inj split
          simpa [entries] using tracing
  | cons first before ih =>
      cases count with
      | zero => simp [starts] at split
      | succ count =>
          obtain ⟨rfl, rest⟩ := List.cons.inj split
          have further := ih tracing.step rest
          rwa [List.append_assoc, ← entries_cons] at further

theorem startsIn_reached (tracing : Tracing capacity earlier offered taken session)
    {operations : List Operation} (leaves : ∀ operation ∈ operations, operation.LeavesTrace)
    {before later : List (Session β)} {reached : Session β}
    (split : session.startsIn operations = before ++ reached :: later) :
    ∃ taken, Tracing capacity earlier (offered ++ entries before) taken reached := by
  induction operations generalizing session offered taken before with
  | nil => simp [startsIn, Dialogue.gather] at split
  | cons operation rest ih =>
      rw [List.forall_mem_cons] at leaves
      have parts : session.starts (session.stepCount operation) ++
          (session.carryOut operation).2.startsIn rest = before ++ reached :: later := split
      have moved := tracing.carryOut leaves.1
      -- The session is reached after the first operation, or in the middle of its steps.
      rcases List.append_eq_append_iff.mp parts with ⟨between, beyond, inRest⟩ |
        ⟨between, within, inRest⟩
      · obtain ⟨taken, there⟩ := ih moved leaves.2 inRest
        rw [List.append_assoc, ← entries_append, ← beyond] at there
        exact ⟨taken, there⟩
      · cases between with
        | nil =>
            have first : (session.carryOut operation).2.startsIn rest = [] ++ reached :: later :=
              inRest.symm
            obtain ⟨taken, there⟩ := ih moved leaves.2 first
            rw [List.append_nil] at within
            rw [within] at there
            exact ⟨taken, by simpa [entries] using there⟩
        | cons first between =>
            obtain ⟨rfl, _⟩ := List.cons.inj inRest
            exact ⟨_, tracing.starts_reached within⟩

end Tracing

end Session

end Nmos6502
