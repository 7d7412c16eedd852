import Nmos6502.Proofs.Accounting
import Nmos6502.Proofs.Observation

/-!
Where a run stops: after the least number of steps that gives it a reason to. The reasons are
read off the processor, the result of the last step and the events that its observation has
queued.
-/

namespace Nmos6502

theorem Cpu.cycles_le_step {β : Type} [Bus β] (cpu : Cpu β) :
    cpu.counters.cycles ≤ cpu.step.2.counters.cycles := by
  rw [cpu.step_counters]
  cases cpu.step.2.lastStep <;> simp [Counters.charge]

theorem Debugger.looksAt_step {β : Type} [Bus β] {debugger : Debugger} {cpu : Cpu β}
    {cycles : Nat} (active : debugger.active = true) (running : cpu.halted = false)
    (succeeded : cpu.step.1 = .ok cycles) : debugger.looksAt cpu.step.2 = true := by
  rcases cpu.step_cases with ⟨halted, _⟩ | ⟨source, _, _, stepped⟩ | ⟨_, _, _, stepped⟩ |
    ⟨_, _, _, stepped⟩
  · simp [running] at halted
  · have last : cpu.step.2.lastStep = .interrupt source := by
      rw [stepped, Cpu.settle_lastStep]
      rfl
    simp [looksAt, active, last]
  · simp [stepped] at succeeded
  · have last : cpu.step.2.lastStep = .executed cpu.nextInstruction := by
      rw [stepped, Cpu.settle_lastStep]
      rfl
    simp [looksAt, active, last]

namespace Session

variable {β : Type} [Bus β]

theorem after_succ (session : Session β) (count : Nat) :
    session.after (count + 1) = (session.after count).step.2 :=
  session.after_add count 1

theorem cycles_le_after (session : Session β) (count : Nat) :
    session.cpu.counters.cycles ≤ (session.after count).cpu.counters.cycles := by
  induction count with
  | zero => exact Nat.le_refl _
  | succ count ih =>
      rw [after_succ]
      exact ih.trans (session.after count).cpu.cycles_le_step

theorem after_active (session : Session β) (count : Nat) :
    (session.after count).debugger.active = session.debugger.active := by
  induction count with
  | zero => rfl
  | succ count ih =>
      rw [after_succ]
      exact ((session.after count).debugger.observe_active _).trans ih

def stepEvents (session : Session β) : List Event :=
  Debugger.queuedSince session.debugger session.step.2.debugger

theorem stepEvents_eq (session : Session β) :
    session.stepEvents = session.debugger.observedEvents session.cpu.step.2 :=
  session.debugger.queuedSince_observe session.cpu.step.2

theorem stepSighted_eq (session : Session β) :
    session.stepSighted =
      (session.step.1, Sighting.ofEvents session.stepEvents, session.step.2) := by
  rw [stepEvents_eq, ← Debugger.observe_sighting]
  rfl

theorem of_stepSighted {session next : Session β} {result : Except StepError Nat}
    {sighting : Sighting} (stepped : session.stepSighted = (result, sighting, next)) :
    session.step.1 = result ∧ Sighting.ofEvents session.stepEvents = sighting ∧
      session.step.2 = next := by
  simpa only [stepSighted_eq, Prod.mk.injEq] using stepped

def lastResult (session : Session β) : Nat → Except StepError Nat
  | 0 => .ok 0
  | earlier + 1 => (session.after earlier).step.1

def lastEvents (session : Session β) : Nat → List Event
  | 0 => []
  | earlier + 1 => (session.after earlier).stepEvents

/-- What gives a run a reason to stop after a number of steps. -/
inductive Stops (limit : Nat) (session : Session β) (count : Nat) : Prop
  | halted : (session.after count).cpu.halted = true → Stops limit session count
  | exhausted : limit ≤ (session.after count).cpu.counters.cycles → Stops limit session count
  | failed {error} : session.lastResult count = .error error → Stops limit session count
  | hit {event} : event ∈ session.lastEvents count → event.isHit = true →
      Stops limit session count

theorem stops_iff (limit : Nat) (session : Session β) (count : Nat) :
    session.Stops limit count ↔
      (session.after count).cpu.halted = true ∨
        limit ≤ (session.after count).cpu.counters.cycles ∨
        (session.lastResult count).isOk = false ∨
        (session.lastEvents count).any Event.isHit = true := by
  constructor
  · intro stops
    cases stops with
    | halted halted => exact .inl halted
    | exhausted exhausted => exact .inr (.inl exhausted)
    | failed failed => exact .inr (.inr (.inl (by rw [failed]; rfl)))
    | hit queued hit => exact .inr (.inr (.inr (List.any_eq_true.mpr ⟨_, queued, hit⟩)))
  · rintro (halted | exhausted | failed | found)
    · exact .halted halted
    · exact .exhausted exhausted
    · rcases result : session.lastResult count with error | cycles
      · exact .failed result
      · rw [result] at failed
        nomatch failed
    · obtain ⟨event, queued, hit⟩ := List.any_eq_true.mp found
      exact .hit queued hit

instance (limit : Nat) (session : Session β) (count : Nat) :
    Decidable (session.Stops limit count) :=
  decidable_of_iff _ (stops_iff limit session count).symm

structure FirstStop (limit : Nat) (session : Session β) (count : Nat) : Prop where
  stops : session.Stops limit count
  first : ∀ earlier < count, ¬session.Stops limit earlier

theorem FirstStop.unique {limit : Nat} {session : Session β} {count other : Nat}
    (firstStop : session.FirstStop limit count) (otherFirst : session.FirstStop limit other) :
    count = other := by
  rcases Nat.lt_trichotomy count other with before | same | after
  · exact absurd firstStop.stops (otherFirst.first count before)
  · exact same
  · exact absurd otherFirst.stops (firstStop.first other after)

/-- A breakpoint counts before a watchpoint, and both before a halt and the end of the budget. -/
def reasonAfter (session : Session β) (count : Nat) : StopReason :=
  match (session.lastEvents count).filterMap Event.broken?,
    (session.lastEvents count).filterMap Event.watched? with
  | _ :: _, _ => .breakpoint (session.after count).cpu.registers.programCounter
  | [], access :: _ => .watchpoint access.address
  | [], [] => if (session.after count).cpu.halted then .halted else .budgetExhausted

theorem reasonAfter_of_broken {session : Session β} {count : Nat} {event : Event}
    {address : UInt16} (queued : event ∈ session.lastEvents count)
    (broken : event.broken? = some address) :
    session.reasonAfter count =
      .breakpoint (session.after count).cpu.registers.programCounter := by
  have told : address ∈ (session.lastEvents count).filterMap Event.broken? :=
    List.mem_filterMap.mpr ⟨event, queued, broken⟩
  rw [reasonAfter]
  rcases hits : (session.lastEvents count).filterMap Event.broken? with _ | ⟨first, others⟩
  · rw [hits] at told
    exact absurd told List.not_mem_nil
  · rfl

def resultAfter (session : Session β) (count consumed : Nat) : Except StepError RunOutcome :=
  (session.lastResult count).map fun _ =>
    { reason := session.reasonAfter count
      cycles := consumed +
        ((session.after count).cpu.counters.cycles - session.cpu.counters.cycles) }

/-! A step that succeeds without a hit only moves the start of the run. -/

section

variable {session : Session β} {cycles : Nat}

def Quiet (session : Session β) : Prop :=
  ∀ event ∈ session.stepEvents, event.isHit = false

theorem quiet_iff :
    session.Quiet ↔ session.stepEvents.filterMap Event.broken? = [] ∧
      session.stepEvents.filterMap Event.watched? = [] := by
  have silent (event : Event) :
      event.isHit = false ↔ event.broken? = none ∧ event.watched? = none := by
    cases event <;> simp [Event.isHit, Event.broken?, Event.watched?]
  simp only [Quiet, silent, List.filterMap_eq_nil_iff, forall_and]

theorem any_of_not_quiet (loud : ¬session.Quiet) : session.stepEvents.any Event.isHit = true := by
  simpa [Quiet] using loud

theorem stopReason?_quiet (quiet : session.Quiet) :
    stopReason? (Sighting.ofEvents session.stepEvents) = none := by
  rw [quiet_iff] at quiet
  rw [Sighting.ofEvents, quiet.1, quiet.2]
  rfl

theorem stopReason?_loud (loud : ¬session.Quiet) :
    stopReason? (Sighting.ofEvents session.stepEvents) = some (session.reasonAfter 1) := by
  have arrived := session.debugger.observedEvents_broken session.cpu.step.2
  rw [← stepEvents_eq] at arrived
  rw [quiet_iff] at loud
  simp only [Sighting.ofEvents, reasonAfter, lastEvents, after]
  rcases broken : session.stepEvents.filterMap Event.broken? with _ | ⟨address, _⟩
  · rcases watched : session.stepEvents.filterMap Event.watched? with _ | ⟨access, _⟩
    · exact absurd ⟨broken, watched⟩ loud
    · rfl
  · rw [arrived address (by simp [broken])]
    rfl

theorem quiet_iff_stopReason? :
    session.Quiet ↔ stopReason? (Sighting.ofEvents session.stepEvents) = none := by
  refine ⟨stopReason?_quiet, fun undisturbed => ?_⟩
  by_contra loud
  rw [stopReason?_loud loud] at undisturbed
  cases undisturbed

theorem stops_succ (succeeded : session.step.1 = .ok cycles) (quiet : session.Quiet)
    (limit count : Nat) :
    session.Stops limit (count + 1) ↔ session.step.2.Stops limit count := by
  cases count with
  | zero =>
      have silent : session.stepEvents.any Event.isHit = false := by
        simpa [Quiet] using quiet
      rw [stops_iff, stops_iff]
      simp only [lastResult, lastEvents, after, succeeded, silent]
      rfl
  | succ count =>
      rw [stops_iff, stops_iff]
      rfl

theorem resultAfter_succ (succeeded : session.step.1 = .ok cycles) (quiet : session.Quiet)
    (count consumed : Nat) :
    session.resultAfter (count + 1) consumed =
      session.step.2.resultAfter count (consumed + cycles) := by
  have counted : session.step.2.cpu.counters.cycles = session.cpu.counters.cycles + cycles :=
    Cpu.step_succeeded succeeded
  have later := session.step.2.cycles_le_after count
  have total : consumed + cycles + ((session.step.2.after count).cpu.counters.cycles -
      session.step.2.cpu.counters.cycles) =
        consumed + ((session.step.2.after count).cpu.counters.cycles -
          session.cpu.counters.cycles) := by
    omega
  rw [resultAfter, resultAfter, total]
  cases count with
  | zero =>
      rw [quiet_iff] at quiet
      simp only [lastResult, reasonAfter, lastEvents, after, succeeded, quiet.1, quiet.2]
      rfl
  | succ count => rfl

end

/-! The run itself. -/

theorem not_stops_zero {session : Session β} {limit : Nat}
    (running : session.cpu.halted = false) (left : session.cpu.counters.cycles < limit) :
    ¬session.Stops limit 0 := by
  simp [stops_iff, after, lastResult, lastEvents, running, left, Except.isOk, Except.toBool]

theorem FirstStop.now {session : Session β} {limit : Nat} (stops : session.Stops limit 0) :
    session.FirstStop limit 0 :=
  ⟨stops, nofun⟩

theorem FirstStop.next {session : Session β} {limit count : Nat}
    (running : session.cpu.halted = false) (left : session.cpu.counters.cycles < limit)
    (stops : session.Stops limit (count + 1))
    (first : ∀ earlier < count, ¬session.Stops limit (earlier + 1)) :
    session.FirstStop limit (count + 1) := by
  refine ⟨stops, fun earlier before => ?_⟩
  cases earlier with
  | zero => exact not_stops_zero running left
  | succ earlier => exact first earlier (by omega)

theorem resultAfter_zero (session : Session β) (consumed : Nat) :
    session.resultAfter 0 consumed =
      .ok ⟨if session.cpu.halted then .halted else .budgetExhausted, consumed⟩ := by
  rw [resultAfter, after, Nat.sub_self, Nat.add_zero]
  rfl

/-- The limit is what the processor will have counted when the budget is used up. -/
theorem runFrom_first (budget : Nat) (session : Session β) (consumed : Nat) {limit : Nat}
    (level : limit + consumed = session.cpu.counters.cycles + budget) :
    ∃ count, session.FirstStop limit count ∧
      session.stepsFrom budget consumed = session.steps count ∧
      session.runFrom budget consumed =
        (session.resultAfter count consumed, session.after count) := by
  induction run_ends budget session consumed with
  | halted halted =>
      refine ⟨0, .now (.halted halted), stepsFrom_idle (.inl halted), ?_⟩
      rw [runFrom_halted halted, resultAfter_zero, if_pos halted]
      rfl
  | exhausted running exhausted =>
      refine ⟨0, .now (.exhausted ?_), stepsFrom_idle (.inr exhausted), ?_⟩
      · rw [after]
        omega
      · rw [runFrom_exhausted running exhausted, resultAfter_zero, running]
        rfl
  | @fail session consumed error sighting next running left stepped =>
      obtain ⟨failed, _, rfl⟩ := of_stepSighted stepped
      refine ⟨1, .next running (by omega) (.failed failed) (by simp), ?_, ?_⟩
      · rw [stepsFrom_fail running left stepped, steps, steps, stepped]
      · rw [runFrom_fail running left stepped, resultAfter]
        simp only [lastResult, after, failed]
        rfl
  | @stop session consumed cycles sighting next reason running left stepped stopped =>
      obtain ⟨succeeded, rfl, rfl⟩ := of_stepSighted stepped
      have loud : ¬session.Quiet := by simp [quiet_iff_stopReason?, stopped]
      have given := (stopReason?_loud loud).symm.trans stopped
      obtain ⟨event, queued, hit⟩ := List.any_eq_true.mp (any_of_not_quiet loud)
      refine ⟨1, .next running (by omega) (.hit queued hit) (by simp), ?_, ?_⟩
      · rw [stepsFrom_stop running left stepped stopped, steps, steps, stepped]
      · have counted : session.step.2.cpu.counters.cycles = session.cpu.counters.cycles + cycles :=
          Cpu.step_succeeded succeeded
        rw [runFrom_stop running left stepped stopped, resultAfter, Option.some.inj given]
        simp only [lastResult, after, succeeded, counted, Nat.add_sub_cancel_left]
        rfl
  | @step session consumed cycles sighting next running left stepped undisturbed _ ih =>
      obtain ⟨succeeded, rfl, rfl⟩ := of_stepSighted stepped
      have quiet := quiet_iff_stopReason?.mpr undisturbed
      have counted : session.step.2.cpu.counters.cycles = session.cpu.counters.cycles + cycles :=
        Cpu.step_succeeded succeeded
      -- A quiet step gives no reason to stop, so that the reasons of the rest are those of all.
      obtain ⟨count, ⟨stops, first⟩, sameSteps, ran⟩ := ih (by omega)
      refine ⟨count + 1, .next running (by omega) ((stops_succ succeeded quiet _ _).mpr stops) ?_,
        ?_, ?_⟩
      · intro earlier before
        rw [stops_succ succeeded quiet]
        exact first earlier before
      · rw [stepsFrom_step running left stepped undisturbed, sameSteps, steps, stepped]
      · rw [runFrom_step running left stepped undisturbed, ran,
          resultAfter_succ succeeded quiet, after]

theorem FirstStop.not_standing {session : Session β} {limit count earlier : Nat}
    (firstStop : session.FirstStop limit count) (active : session.debugger.active = true)
    (later : 0 < earlier) (before : earlier < count) {breakpoint : Breakpoint}
    (present : (session.after earlier).debugger.breakpoints[
      (session.after earlier).cpu.registers.programCounter]? = some breakpoint) :
    ¬breakpoint.Standing := by
  intro standing
  obtain ⟨previous, rfl⟩ := Nat.exists_eq_add_of_lt later
  rw [Nat.zero_add] at *
  have reached := firstStop.first previous (by omega)
  have goesOn := firstStop.first (previous + 1) before
  rw [after_succ] at present
  have stillActive := (session.after_active previous).trans active
  have running : (session.after previous).cpu.halted = false := by
    apply Bool.eq_false_iff.mpr
    exact fun halted => reached (.halted halted)
  -- The arrival would have been a hit already, and a reason to stop.
  rcases result : session.lastResult (previous + 1) with error | cycles
  · exact goesOn (.failed result)
  · obtain ⟨arrived, there, stood⟩ := Debugger.observe_standing standing present
    obtain ⟨event, queued, hit⟩ := Debugger.exists_hit_of_standing stood
      (Debugger.looksAt_step stillActive running result) there
    rw [← stepEvents_eq] at queued
    exact goesOn (.hit queued hit)

/-- A run takes the least number of steps after which it has a reason to stop, and it names this
reason. After its first step it never starts another one at a breakpoint that is switched on and
has no condition. -/
theorem run_stops_first (session : Session β) (budget : Nat) :
    ∃ count, session.FirstStop (session.cpu.counters.cycles + budget) count ∧
      session.stepsFrom budget 0 = session.steps count ∧
      session.run budget =
        ((session.lastResult count).map fun _ =>
          { reason := session.reasonAfter count
            cycles := (session.after count).cpu.counters.cycles - session.cpu.counters.cycles },
        session.after count) ∧
      ((session.lastEvents count).filterMap Event.watched?).Sublist
        (session.after count).cpu.accesses ∧
      (session.debugger.active = true → ∀ earlier, 0 < earlier → earlier < count →
        ∀ breakpoint, (session.after earlier).debugger.breakpoints[
            (session.after earlier).cpu.registers.programCounter]? = some breakpoint →
          ¬breakpoint.Standing) := by
  obtain ⟨count, firstStop, sameSteps, ran⟩ := session.runFrom_first budget 0 (Nat.add_zero _)
  refine ⟨count, firstStop, sameSteps, ?_, ?_,
    fun active earlier later before breakpoint present =>
      firstStop.not_standing active later before present⟩
  · rw [run, ran, resultAfter]
    simp only [Nat.zero_add]
  · cases count with
    | zero => exact List.nil_sublist _
    | succ count =>
        rw [lastEvents, stepEvents_eq, after_succ]
        exact Debugger.observedEvents_watched _ _

def looping : Session FlatMemory :=
  { cpu := { memory := FlatMemory.zeroed.load 0 [0xE8, 0x4C, 0x00, 0x00] }
    debugger := (({} : Debugger).start.setBreakpoint 0 none none).2 }

theorem looping_stops_first :
    looping.run 100 = (.ok ⟨.breakpoint 0x0000, 5⟩, looping.after 2) ∧
      ∀ breakpoint, (looping.after 1).debugger.breakpoints[
          (looping.after 1).cpu.registers.programCounter]? = some breakpoint →
        ¬breakpoint.Standing := by
  obtain ⟨count, firstStop, _, ran, _, apart⟩ := run_stops_first looping 100
  have twice : count = 2 := firstStop.unique ⟨by decide +kernel, by decide +kernel⟩
  subst twice
  have result : looping.lastResult 2 = .ok 3 := by decide +kernel
  have reason : looping.reasonAfter 2 = .breakpoint 0x0000 := by decide +kernel
  have cycles : (looping.after 2).cpu.counters.cycles - looping.cpu.counters.cycles = 5 := by
    decide +kernel
  refine ⟨?_, apart rfl 1 (by decide) (by decide)⟩
  rw [ran, result, reason, cycles]
  rfl

end Session

end Nmos6502
