import Nmos6502.Proofs.TraceWindow

/-!
A trace against the counters of the processor. As long as nothing is dropped and the processor is
not reset, the profile of a trace tells by how much the counters have grown, but for what
interrupts cost.
-/

namespace Nmos6502

structure Counters.Grown (before : Counters) (records : List StepRecord) (after : Counters) :
    Prop where
  cycles : after.cycles = before.cycles +
    ExecutedInstruction.totalCycles (records.filterMap StepRecord.executed?) +
      7 * records.countP StepRecord.isInterrupt
  instructions : after.instructions =
    before.instructions + (records.filterMap StepRecord.executed?).length
  sequence : (records.filterMap StepRecord.executed?).map ExecutedInstruction.sequence =
    List.range' (before.instructions + 1) (records.filterMap StepRecord.executed?).length

namespace Counters.Grown

theorem nothing (counters : Counters) : Grown counters [] counters :=
  ⟨rfl, rfl, rfl⟩

theorem trans {before middle after : Counters} {first second : List StepRecord}
    (start : Grown before first middle) (finish : Grown middle second after) :
    Grown before (first ++ second) after where
  cycles := by
    rw [finish.cycles, start.cycles, List.filterMap_append, List.countP_append,
      ExecutedInstruction.totalCycles_append]
    omega
  instructions := by
    rw [finish.instructions, start.instructions, List.filterMap_append, List.length_append,
      Nat.add_assoc]
  sequence := by
    rw [List.filterMap_append, List.map_append, start.sequence, finish.sequence,
      start.instructions, List.length_append, Nat.add_right_comm, ← List.range'_append_1]

theorem charge {counters : Counters} {record : StepRecord}
    (numbered : ∀ instruction, record = .executed instruction →
      instruction.sequence = counters.instructions + 1) :
    Grown counters [record] (counters.charge record) := by
  cases record with
  | executed instruction =>
      refine ⟨rfl, rfl, ?_⟩
      exact congrArg (· :: []) (numbered instruction rfl)
  | nothing | interrupt _ | halted => exact ⟨rfl, rfl, rfl⟩

end Counters.Grown

namespace Cpu

variable {β : Type} [Bus β]

theorem step_grown (cpu : Cpu β) : cpu.counters.Grown [cpu.outcomeOf] cpu.step.2.counters := by
  rw [cpu.charged.counters]
  exact .charge fun instruction last => (cpu.charged.executed instruction last).1

theorem stepCount_still (cpu : Cpu β) {operation : Operation}
    (still : operation.takesStep = false) : cpu.stepCount operation = 0 := by
  cases operation with
  | step => simp [Operation.takesStep] at still
  | execute budget =>
      have nothing : budget = 0 := by simpa [Operation.takesStep] using still
      simp [stepCount, nothing, stepsFrom_stop]
  | _ => rfl

end Cpu

theorem Profile.cycles_ofEntries (entries : List TraceEntry) (limit : Nat) :
    (Profile.ofEntries entries limit).cycles =
      ExecutedInstruction.totalCycles (entries.map TraceEntry.instruction) := by
  rw [ExecutedInstruction.totalCycles, List.foldr_map]
  rfl

namespace Session

variable {β : Type}

def startTrace (session : Session β) (capacity : Nat) : Session β :=
  { session with debugger := session.debugger.startTrace capacity }

theorem startTrace_tracing {session : Session β} (active : session.debugger.active = true)
    (capacity : Nat) :
    Tracing capacity
      ((session.startTrace capacity).debugger.events.toList.filterMap Event.full?) [] []
      (session.startTrace capacity) := by
  obtain ⟨taken, spare, started⟩ := session.debugger.startTrace_eq capacity
  simp only [startTrace, started]
  exact ⟨active, ⟨_, rfl, Trace.holds_begin taken capacity⟩, by simp⟩

theorem Tracing.traceEntries_eq {capacity : Nat} {earlier : List Nat} {offered : List TraceEntry}
    {taken : List Event} {session : Session β}
    (tracing : Tracing capacity earlier offered taken session) :
    session.debugger.traceEntries = offered.take capacity := by
  obtain ⟨trace, underWay, holds⟩ := tracing.trace
  simp only [Debugger.traceEntries, underWay, holds.entries]

variable [Bus β]

def outcomes (reached : List (Session β)) : List StepRecord :=
  reached.map fun session => session.cpu.outcomeOf

theorem map_instruction_entries (reached : List (Session β)) :
    (entries reached).map TraceEntry.instruction =
      (outcomes reached).filterMap StepRecord.executed? := by
  rw [entries, outcomes, List.map_filterMap, List.filterMap_map]
  refine congrArg (List.filterMap · reached) (funext fun session => ?_)
  simp only [Cpu.offering?, Function.comp_apply, Cpu.outcomeOf]
  cases session.cpu.step.2.lastStep.executed? <;> rfl

theorem after_grown (session : Session β) (count : Nat) :
    session.cpu.counters.Grown (outcomes (session.starts count))
      (session.after count).cpu.counters := by
  induction count generalizing session with
  | zero => exact .nothing _
  | succ count ih => exact session.cpu.step_grown.trans (ih session.step.2)

theorem carryOut_grown (session : Session β) {operation : Operation}
    (leaves : operation.LeavesTrace) (kept : operation ≠ .processor .reset) :
    session.cpu.counters.Grown (outcomes (session.starts (session.stepCount operation)))
      (session.carryOut operation).2.cpu.counters := by
  cases operation with
  | processor operation =>
      have same := session.cpu.carryOut_counters fun reset => kept (congrArg _ reset)
      rw [session.cpu.stepCount_still leaves] at same
      have grown : session.cpu.counters.Grown [] (session.cpu.after 0).counters := .nothing _
      rw [← same] at grown
      exact grown
  | run budget =>
      have ran := session.after_grown (session.stepsFrom budget 0).length
      rw [← runFrom_after] at ran
      exact ran
  | step => exact session.after_grown 1
  | observe | watch _ _ _ _ | adjust _ | takeEvents | dump _ _ | summarize => exact .nothing _

theorem carryOutAll_grown (session : Session β) {operations : List Operation}
    (leaves : ∀ operation ∈ operations, operation.LeavesTrace)
    (kept : ∀ operation ∈ operations, operation ≠ .processor .reset) :
    session.cpu.counters.Grown (outcomes (session.startsIn operations))
      (session.carryOutAll operations).2.cpu.counters := by
  induction operations generalizing session with
  | nil => exact .nothing _
  | cons operation rest ih =>
      rw [List.forall_mem_cons] at leaves kept
      have finished := (session.carryOut_grown leaves.1 kept.1).trans (ih _ leaves.2 kept.2)
      rwa [outcomes, outcomes, ← List.map_append] at finished

/-- What a session makes of a window in which it traces, from the moment the trace is started. -/
structure TracesFirst (session : Session β) (capacity : Nat) (operations : List Operation) :
    Prop where
  offers : ∀ reached ∈ session.startsIn operations, reached.cpu.Offers
  entries : (session.carryOutAll operations).2.debugger.traceEntries =
    (entries (session.startsIn operations)).take capacity
  reports : ∀ before reached later, session.startsIn operations = before ++ reached :: later →
    reached.stepEvents.filterMap Event.full? =
      if reached.cpu.offering?.isSome ∧ (Session.entries before).length = capacity then [capacity]
      else []
  reported : ((session.carryOutAll operations).1.flatMap Answer.taken ++
      (session.carryOutAll operations).2.debugger.events.toList).filterMap Event.full? =
    session.debugger.events.toList.filterMap Event.full? ++
      if capacity < (Session.entries (session.startsIn operations)).length then [capacity] else []

structure TracesGrowth (session : Session β) (capacity : Nat) (operations : List Operation) :
    Prop where
  sequence : (session.carryOutAll operations).2.debugger.traceEntries.map
      (fun entry => entry.instruction.sequence) =
    List.range' (session.cpu.counters.instructions + 1)
      (session.carryOutAll operations).2.debugger.traceEntries.length
  instructions : (entries (session.startsIn operations)).length ≤ capacity →
    (session.carryOutAll operations).2.cpu.counters.instructions =
      session.cpu.counters.instructions +
        (session.carryOutAll operations).2.debugger.profile.instructions
  cycles : (entries (session.startsIn operations)).length ≤ capacity →
    (session.carryOutAll operations).2.cpu.counters.cycles =
      session.cpu.counters.cycles +
        (session.carryOutAll operations).2.debugger.profile.cycles +
        7 * (session.startsIn operations).countP fun reached =>
          reached.cpu.outcomeOf.isInterrupt

theorem Tracing.tracesFirst {capacity : Nat} {session : Session β}
    (tracing : Tracing capacity (session.debugger.events.toList.filterMap Event.full?) [] []
      session)
    {operations : List Operation} (leaves : ∀ operation ∈ operations, operation.LeavesTrace) :
    session.TracesFirst capacity operations := by
  have ended := tracing.carryOutAll leaves
  refine ⟨fun reached _ => reached.cpu.offers, ended.traceEntries_eq, ?_, ended.reported⟩
  intro before reached later split
  obtain ⟨taken, there⟩ := tracing.startsIn_reached leaves split
  exact there.stepEvents_full

theorem tracesGrowth {capacity : Nat} {session : Session β} {operations : List Operation}
    (first : session.TracesFirst capacity operations)
    (leaves : ∀ operation ∈ operations, operation.LeavesTrace)
    (kept : ∀ operation ∈ operations, operation ≠ .processor .reset) :
    session.TracesGrowth capacity operations := by
  have grown := session.carryOutAll_grown leaves kept
  have same := map_instruction_entries (session.startsIn operations)
  have count : (entries (session.startsIn operations)).length =
      ((outcomes (session.startsIn operations)).filterMap StepRecord.executed?).length := by
    rw [← same, List.length_map]
  have whole (room : (entries (session.startsIn operations)).length ≤ capacity) :
      (session.carryOutAll operations).2.debugger.traceEntries =
        entries (session.startsIn operations) := by
    rw [first.entries, List.take_of_length_le room]
  constructor
  · have numbers := grown.sequence
    rw [← same, List.map_map, ← List.take_append_drop capacity (entries _), List.map_append,
      ← first.entries] at numbers
    -- The numbers go on without a gap, and so do the first of them.
    obtain ⟨taken, _, beginning, _⟩ := List.range'_eq_append_iff.mp numbers.symm
    have length := congrArg List.length beginning
    rw [List.length_map, List.length_range'] at length
    rw [length]
    exact beginning
  · intro room
    rw [grown.instructions, ← count, ← whole room]
    rfl
  · intro room
    rw [grown.cycles, ← same, ← whole room, ← Profile.cycles_ofEntries, outcomes, List.countP_map]
    rfl

/-- A trace is the first instructions of its window, as many as there is room for, and it is
reported once that there was no more. -/
theorem trace_window {session : Session β} (active : session.debugger.active = true)
    (capacity : Nat) {operations : List Operation}
    (leaves : ∀ operation ∈ operations, operation.LeavesTrace) :
    (session.startTrace capacity).TracesFirst capacity operations ∧
      ((∀ operation ∈ operations, operation ≠ .processor .reset) →
        (session.startTrace capacity).TracesGrowth capacity operations) := by
  have first := (startTrace_tracing active capacity).tracesFirst leaves
  exact ⟨first, tracesGrowth first leaves⟩

def overrunObserved : Session (MappedMemory Ram) :=
  { cpu := Cpu.overrunning.reset, debugger := ({} : Debugger).start }

def overrunWindow : List Operation :=
  [.processor .requestNmi, .step,
    .processor (.setRegisters fun registers => { registers with programCounter := 0 }),
    .step, .step, .step, .step]

theorem overrun_traced :
    ((overrunObserved.startTrace 1).carryOutAll overrunWindow).2.debugger.traceEntries.map
        (fun entry => (entry.instruction.address, entry.instruction.sequence)) = [(0x0000, 1)] ∧
      (overrunObserved.startTrace 1).TracesFirst 1 overrunWindow ∧
      ((overrunObserved.startTrace 2).carryOutAll overrunWindow).2.cpu.counters.cycles =
        (overrunObserved.startTrace 2).cpu.counters.cycles +
          ((overrunObserved.startTrace 2).carryOutAll overrunWindow).2.debugger.profile.cycles +
          7 := by
  have active : overrunObserved.debugger.active = true := rfl
  have leaves : ∀ operation ∈ overrunWindow, operation.LeavesTrace := by
    simp [overrunWindow, Operation.LeavesTrace, Nmos6502.Operation.takesStep]
  have kept : ∀ operation ∈ overrunWindow, operation ≠ .processor .reset := by
    simp [overrunWindow]
  have growth := (trace_window active 2 leaves).2 kept
  refine ⟨by decide +kernel, (trace_window active 1 leaves).1, ?_⟩
  rw [growth.cycles (by decide +kernel)]
  have once : ((overrunObserved.startTrace 2).startsIn overrunWindow).countP
      (fun reached => reached.cpu.outcomeOf.isInterrupt) = 1 := by decide +kernel
  rw [once]

end Session

end Nmos6502
