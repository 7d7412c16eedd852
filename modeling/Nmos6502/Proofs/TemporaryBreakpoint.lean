import Nmos6502.Proofs.SessionTrail

/-!
Temporary breakpoints. One waits, however often it is switched off and on again, until an
observation finds the program counter at its address. That removes it, and nothing is told of the
address from then on until a breakpoint is registered there again.
-/

namespace Nmos6502

def Event.breakAt? (address : UInt16) (event : Event) : Option Event :=
  if event.broken? = some address then some event else none

namespace Breakpoint

structure Unspent (name : String) (breakpoint : Breakpoint) : Prop where
  name : breakpoint.name = name
  temporary : breakpoint.temporary = true
  condition : breakpoint.condition = some .notYetHit
  hits : breakpoint.hits = 0

theorem createTemporary_unspent (address : UInt16) (name : Option String) :
    (createTemporary address name).Unspent (createTemporary address name).name :=
  ⟨rfl, rfl, rfl, rfl⟩

theorem Unspent.enable {name : String} {breakpoint : Breakpoint}
    (unspent : breakpoint.Unspent name) (enabled : Bool) :
    Unspent name { breakpoint with enabled } :=
  ⟨unspent.name, unspent.temporary, unspent.condition, unspent.hits⟩

theorem Unspent.meet {name : String} {breakpoint : Breakpoint}
    (unspent : breakpoint.Unspent name) (address : UInt16) (registers : Registers)
    (counters : Counters) :
    breakpoint.meet address registers counters =
      if breakpoint.enabled then (none, some (.breakpointHit address name 1 true))
      else (some breakpoint, none) := by
  have holds : breakpoint.decide registers none = .ok true := by
    rw [Trigger.decide, unspent.condition, unspent.hits]
    rfl
  simp [Breakpoint.meet, holds, Trigger.countHit, unspent.name, unspent.temporary, unspent.hits]

theorem meet_breakAt? {breakpoint : Breakpoint} {address other : UInt16}
    (elsewhere : address ≠ other) (registers : Registers) (counters : Counters) :
    (breakpoint.meet address registers counters).2.bind (Event.breakAt? other) = none :=
  Option.bind_eq_none_iff.mpr (meet_events
    (fun _ _ _ => if_neg fun same => elsewhere (Option.some.inj same)) fun _ _ => rfl)

end Breakpoint

namespace Debugger

section

variable {β : Type} [Bus β] (debugger : Debugger) (cpu : Cpu β) (address : UInt16)

theorem observe_breakpoints :
    (debugger.observe cpu).1.breakpoints[address]? =
      if debugger.looksAt cpu = true ∧ cpu.registers.programCounter = address then
        debugger.breakpoints[address]?.bind fun breakpoint =>
          (breakpoint.meet address cpu.registers cpu.counters).1
      else debugger.breakpoints[address]? := by
  rw [observe_eq]
  rcases looks : debugger.looksAt cpu with _ | _
  · simp
  · simp [lookAround_breakpoints, (traced_records debugger cpu).1]

theorem observedEvents_breakAt? :
    (debugger.observedEvents cpu).filterMap (Event.breakAt? address) =
      if debugger.looksAt cpu = true ∧ cpu.registers.programCounter = address then
        (debugger.breakpoints[address]?.bind fun breakpoint =>
          (breakpoint.meet address cpu.registers cpu.counters).2.bind
            (Event.breakAt? address)).toList
      else [] := by
  have unwatched (watchpoint : Watchpoint) (access : Access) (seen : Option UInt8)
      (registers : Registers) (counters : Counters) :
      (watchpoint.notice access seen registers counters).2.bind (Event.breakAt? address) = none :=
    Option.bind_eq_none_iff.mpr
      (Watchpoint.notice_events (fun _ _ _ _ => rfl) fun _ _ => rfl)
  rw [observedEvents]
  rcases looks : debugger.looksAt cpu with _ | _
  · simp
  · simp only [if_true, true_and]
    rw [List.filterMap_append, filterMap_tracedEvents _ _ _ fun _ => rfl, List.nil_append,
      lookEvents, List.filterMap_append, filterMap_accessEvents _ _ _ unwatched, List.nil_append,
      filterMap_toList, arrivalEvent?, (traced_records debugger cpu).1, Option.bind_assoc]
    split
    · rename_i here
      rw [here]
    · rename_i elsewhere
      have silent : (debugger.breakpoints[cpu.registers.programCounter]?.bind fun breakpoint =>
          (breakpoint.meet cpu.registers.programCounter cpu.registers cpu.counters).2.bind
            (Event.breakAt? address)) = none :=
        Option.bind_eq_none_iff.mpr fun breakpoint _ => Breakpoint.meet_breakAt? elsewhere _ _
      rw [silent]
      rfl

theorem observe_watchpoints_isSome :
    ((debugger.observe cpu).1.account? .watchpoint address).isSome =
      (debugger.account? .watchpoint address).isSome := by
  rcases present : debugger.account? .watchpoint address with _ | account
  · rw [(observe_absent cpu present).1]
  · obtain ⟨watchpoint, _, rfl⟩ := Option.map_eq_some_iff.mp present
    rw [observe_account cpu present]
    rfl

end

theorem Operation.unregistered_of_lasts {β : Type} {address : UInt16} {operation : Operation β}
    (lasts : operation.ends .breakpoint address = false) :
    operation.fresh? .breakpoint address = none := by
  cases operation with
  | setBreakpoint place | setTemporaryBreakpoint place =>
      simpa [Operation.ends, Operation.fresh?] using lasts
  | _ => rfl

variable {β : Type} [Bus β] {address : UInt16} {name : String}

def breaksAt (address : UInt16) (debugger : Debugger) (operation : Operation β) : List Event :=
  (debugger.queued operation).filterMap (Event.breakAt? address)

theorem breaksAt_idle (debugger : Debugger) {operation : Operation β}
    (idle : operation.isObservation = false) : debugger.breaksAt address operation = [] := by
  rw [breaksAt, queued_idle debugger idle]
  rfl

/-- The operation is an observation of an instruction or an interrupt entry that has led to the
address, where a breakpoint is switched on. -/
def Arrives (address : UInt16) (debugger : Debugger) : Operation β → Prop
  | .observe cpu =>
      debugger.looksAt cpu = true ∧ cpu.registers.programCounter = address ∧
        debugger.enabled? .breakpoint address = some true
  | _ => False

instance (address : UInt16) (debugger : Debugger) :
    ∀ operation : Operation β, Decidable (debugger.Arrives address operation)
  | .observe _ => inferInstanceAs (Decidable (_ ∧ _))
  | .start | .stop | .setBreakpoint .. | .setTemporaryBreakpoint .. | .removeBreakpoint _
  | .enableBreakpoint .. | .clearBreakpoints | .setWatchpoint .. | .removeWatchpoint _
  | .clearWatchpoints | .enableWatchpoint .. | .startTrace _ | .stopTrace | .recycleTrace _
  | .takeEvents =>
      inferInstanceAs (Decidable False)

structure Waits (address : UInt16) (name : String) (debugger : Debugger) : Prop where
  active : debugger.active = true
  present : ∃ breakpoint, debugger.breakpoints[address]? = some breakpoint ∧
    breakpoint.Unspent name

/-- The operation tells of a first hit at the address, and of the records it removes no other. -/
structure Fires (address : UInt16) (name : String) (debugger : Debugger)
    (operation : Operation β) : Prop where
  told : debugger.breaksAt address operation = [.breakpointHit address name 1 true]
  removed : (debugger.carryOut operation).2.breakpoints[address]? = none
  breakpoints : ∀ other, other ≠ address →
    (debugger.carryOut operation).2.breakpoints[other]? = debugger.breakpoints[other]?
  watchpoints : ∀ other,
    ((debugger.carryOut operation).2.account? .watchpoint other).isSome =
      (debugger.account? .watchpoint other).isSome

section

variable {debugger : Debugger} {operation : Operation β}

theorem Fires.queued (fires : debugger.Fires address name operation) :
    .breakpointHit address name 1 true ∈ debugger.queued operation := by
  have told : .breakpointHit address name 1 true ∈ debugger.breaksAt address operation := by
    rw [fires.told]
    exact List.mem_singleton_self _
  obtain ⟨event, queued, same⟩ := List.mem_filterMap.mp told
  have event_eq := Option.some.inj (Option.ite_none_right_eq_some.mp same).2
  rwa [event_eq] at queued

theorem Waits.fires (waits : debugger.Waits address name)
    (arrives : debugger.Arrives address operation) : debugger.Fires address name operation := by
  obtain ⟨breakpoint, present, unspent⟩ := waits.present
  cases operation with
  | observe cpu =>
      obtain ⟨looks, here, switched⟩ := arrives
      have enabled : breakpoint.enabled = true := by
        simpa [enabled?, present] using switched
      have met := unspent.meet address cpu.registers cpu.counters
      rw [if_pos enabled] at met
      constructor
      · rw [breaksAt, queued_observe, observedEvents_breakAt?, if_pos ⟨looks, here⟩, present,
          Option.bind_some, met]
        exact congrArg Option.toList (if_pos rfl)
      · change (debugger.observe cpu).1.breakpoints[address]? = none
        rw [observe_breakpoints, if_pos ⟨looks, here⟩, present, Option.bind_some, met]
      · intro other elsewhere
        change (debugger.observe cpu).1.breakpoints[other]? = _
        rw [observe_breakpoints, if_neg fun arrived => elsewhere (arrived.2.symm.trans here)]
      · exact debugger.observe_watchpoints_isSome cpu
  | _ => exact absurd arrives id

theorem Waits.observe (waits : debugger.Waits address name) {cpu : Cpu β}
    (unmet : ¬debugger.Arrives address (.observe cpu)) :
    (debugger.observe cpu).1.Waits address name ∧
      debugger.breaksAt address (.observe cpu) = [] := by
  obtain ⟨breakpoint, present, unspent⟩ := waits.present
  have active : (debugger.observe cpu).1.active = true :=
    (debugger.observe_active cpu).trans waits.active
  by_cases arrived : debugger.looksAt cpu = true ∧ cpu.registers.programCounter = address
  · have disabled : ¬breakpoint.enabled = true := by
      intro enabled
      exact unmet ⟨arrived.1, arrived.2, by simp [enabled?, present, enabled]⟩
    have met := unspent.meet address cpu.registers cpu.counters
    rw [if_neg disabled] at met
    refine ⟨⟨active, breakpoint, ?_, unspent⟩, ?_⟩
    · rw [observe_breakpoints, if_pos arrived, present, Option.bind_some, met]
    · rw [breaksAt, queued_observe, observedEvents_breakAt?, if_pos arrived, present,
        Option.bind_some, met]
      rfl
  · refine ⟨⟨active, breakpoint, ?_, unspent⟩, ?_⟩
    · rw [observe_breakpoints, if_neg arrived, present]
    · rw [breaksAt, queued_observe, observedEvents_breakAt?, if_neg arrived]

theorem Waits.putBreakpoint (waits : debugger.Waits address name) {place : UInt16}
    (elsewhere : place ≠ address) (breakpoint : Breakpoint) :
    (debugger.putBreakpoint place breakpoint).Waits address name :=
  { waits with
    present := by
      simpa [Debugger.putBreakpoint, Std.TreeMap.getElem?_insert, elsewhere] using waits.present }

theorem Waits.dropBreakpoint (waits : debugger.Waits address name) {place : UInt16}
    (elsewhere : place ≠ address) : (debugger.dropBreakpoint place).Waits address name :=
  { waits with
    present := by
      simpa [Debugger.dropBreakpoint, Std.TreeMap.getElem?_erase, elsewhere]
        using waits.present }

theorem Waits.enableBreakpoint (waits : debugger.Waits address name) (place : UInt16)
    (enabled : Bool) : (debugger.enableBreakpoint place enabled).2.Waits address name := by
  obtain ⟨breakpoint, present, unspent⟩ := waits.present
  refine ⟨waits.active, ?_⟩
  simp only [Debugger.enableBreakpoint, Std.TreeMap.getElem?_modify]
  split
  · rename_i here
    rw [Std.compare_eq_iff_eq.mp here, present]
    exact ⟨_, rfl, unspent.enable enabled⟩
  · exact ⟨breakpoint, present, unspent⟩

/-- Only an arrival ends the waiting, as long as the record is left alone. -/
theorem Waits.carryOut (waits : debugger.Waits address name)
    (lasts : operation.ends .breakpoint address = false)
    (unmet : ¬debugger.Arrives address operation) :
    (debugger.carryOut operation).2.Waits address name ∧
      debugger.breaksAt address operation = [] := by
  cases operation with
  | observe cpu => exact waits.observe unmet
  | setBreakpoint place condition label =>
      exact ⟨waits.putBreakpoint (by simpa [Operation.ends] using lasts) _, breaksAt_idle _ rfl⟩
  | setTemporaryBreakpoint place label =>
      exact ⟨waits.putBreakpoint (by simpa [Operation.ends] using lasts) _, breaksAt_idle _ rfl⟩
  | removeBreakpoint place =>
      exact ⟨waits.dropBreakpoint (by simpa [Operation.ends] using lasts), breaksAt_idle _ rfl⟩
  | enableBreakpoint place enabled =>
      exact ⟨waits.enableBreakpoint place enabled, breaksAt_idle _ rfl⟩
  | stop | clearBreakpoints => simp [Operation.ends] at lasts
  | start => exact ⟨{ waits with active := rfl }, breaksAt_idle _ rfl⟩
  | startTrace capacity =>
      obtain ⟨taken, spare, started⟩ := debugger.startTrace_eq capacity
      exact ⟨by rw [Debugger.carryOut, started]; exact { waits with }, breaksAt_idle _ rfl⟩
  | recycleTrace storage =>
      obtain ⟨spare, kept⟩ := debugger.recycleTrace_eq storage
      exact ⟨by rw [Debugger.carryOut, kept]; exact { waits with }, breaksAt_idle _ rfl⟩
  | setWatchpoint | removeWatchpoint | clearWatchpoints | enableWatchpoint | stopTrace
  | takeEvents => exact ⟨{ waits with }, breaksAt_idle _ rfl⟩

theorem carryOut_vacant (vacant : debugger.breakpoints[address]? = none)
    (unregistered : operation.fresh? .breakpoint address = none) :
    (debugger.carryOut operation).2.breakpoints[address]? = none ∧
      debugger.breaksAt address operation = [] := by
  cases operation with
  | observe cpu =>
      constructor
      · change (debugger.observe cpu).1.breakpoints[address]? = none
        rw [observe_breakpoints, vacant, Option.bind_none, ite_self]
      · rw [breaksAt, queued_observe, observedEvents_breakAt?, vacant]
        simp
  | setBreakpoint place condition label =>
      have elsewhere : place ≠ address := by simpa [Operation.fresh?] using unregistered
      refine ⟨?_, breaksAt_idle _ rfl⟩
      simpa [carryOut, setBreakpoint, putBreakpoint, Std.TreeMap.getElem?_insert, elsewhere]
        using vacant
  | setTemporaryBreakpoint place label =>
      have elsewhere : place ≠ address := by simpa [Operation.fresh?] using unregistered
      refine ⟨?_, breaksAt_idle _ rfl⟩
      simpa [carryOut, setTemporaryBreakpoint, putBreakpoint, Std.TreeMap.getElem?_insert,
        elsewhere] using vacant
  | removeBreakpoint place =>
      refine ⟨?_, breaksAt_idle _ rfl⟩
      simp [carryOut, removeBreakpoint, dropBreakpoint, Std.TreeMap.getElem?_erase, vacant]
  | enableBreakpoint place enabled =>
      refine ⟨?_, breaksAt_idle _ rfl⟩
      simp only [carryOut, enableBreakpoint, Std.TreeMap.getElem?_modify, vacant]
      split
      · rename_i here
        rw [Std.compare_eq_iff_eq.mp here, vacant]
        rfl
      · rfl
  | clearBreakpoints => exact ⟨Std.TreeMap.getElem?_emptyc, breaksAt_idle _ rfl⟩
  | stop =>
      obtain ⟨spare, stopped⟩ := debugger.stop_eq
      refine ⟨?_, breaksAt_idle _ rfl⟩
      rw [carryOut, stopped]
      exact Std.TreeMap.getElem?_emptyc
  | startTrace capacity =>
      obtain ⟨taken, spare, started⟩ := debugger.startTrace_eq capacity
      exact ⟨by rw [carryOut, started]; exact vacant, breaksAt_idle _ rfl⟩
  | recycleTrace storage =>
      obtain ⟨spare, kept⟩ := debugger.recycleTrace_eq storage
      exact ⟨by rw [carryOut, kept]; exact vacant, breaksAt_idle _ rfl⟩
  | start | setWatchpoint | removeWatchpoint | clearWatchpoints | enableWatchpoint | stopTrace
  | takeEvents => exact ⟨vacant, breaksAt_idle _ rfl⟩

end

/-! Whole sequences of operations. -/

theorem Waits.carryOutAll {debugger : Debugger} {operations : List (Operation β)}
    (waits : debugger.Waits address name)
    (lasts : ∀ operation ∈ operations, operation.ends .breakpoint address = false)
    (unmet : ¬Dialogue.Sometime Debugger.carryOut debugger operations (Arrives address)) :
    (debugger.carryOutAll operations).2.Waits address name ∧
      Dialogue.gather Debugger.carryOut (breaksAt address) debugger operations = [] := by
  induction operations generalizing debugger with
  | nil => exact ⟨waits, rfl⟩
  | cons operation rest ih =>
      rw [List.forall_mem_cons] at lasts
      rw [Dialogue.sometime_cons, not_or] at unmet
      obtain ⟨notNow, notLater⟩ := unmet
      obtain ⟨stillWaits, quiet⟩ := waits.carryOut lasts.1 notNow
      obtain ⟨finallyWaits, stillQuiet⟩ := ih stillWaits lasts.2 notLater
      refine ⟨finallyWaits, ?_⟩
      rw [Dialogue.gather, quiet, stillQuiet]
      rfl

theorem carryOutAll_vacant {debugger : Debugger} {operations : List (Operation β)}
    (vacant : debugger.breakpoints[address]? = none)
    (unregistered : ∀ operation ∈ operations, operation.fresh? .breakpoint address = none) :
    (debugger.carryOutAll operations).2.breakpoints[address]? = none ∧
      Dialogue.gather carryOut (breaksAt address) debugger operations = [] := by
  induction operations generalizing debugger with
  | nil => exact ⟨vacant, rfl⟩
  | cons operation rest ih =>
      rw [List.forall_mem_cons] at unregistered
      obtain ⟨stillVacant, quiet⟩ := carryOut_vacant vacant unregistered.1
      obtain ⟨finallyVacant, stillQuiet⟩ := ih stillVacant unregistered.2
      refine ⟨finallyVacant, ?_⟩
      rw [Dialogue.gather, quiet, stillQuiet]
      rfl

/-- In the course of some operations the breakpoint waits until it is met. Then it fires, and
whatever comes after that tells of no hit until a breakpoint is registered at the address. -/
structure FiresOnce (address : UInt16) (name : String) (debugger : Debugger)
    (operations : List (Operation β)) : Prop where
  waits : ∀ earlier later, operations = earlier ++ later →
    ¬Dialogue.Sometime carryOut debugger earlier (Arrives address) →
    (debugger.carryOutAll earlier).2.Waits address name ∧
      Dialogue.gather carryOut (breaksAt address) debugger earlier = []
  fires : ∀ earlier operation later, operations = earlier ++ operation :: later →
    ¬Dialogue.Sometime carryOut debugger earlier (Arrives address) →
    (debugger.carryOutAll earlier).2.Arrives address operation →
    (debugger.carryOutAll earlier).2.Fires address name operation
  silent : ∀ earlier operation later, operations = earlier ++ operation :: later →
    ¬Dialogue.Sometime carryOut debugger earlier (Arrives address) →
    (debugger.carryOutAll earlier).2.Arrives address operation →
    ∀ further, (∀ another ∈ further, another.fresh? .breakpoint address = none) →
      ((debugger.carryOutAll (earlier ++ [operation])).2.carryOutAll
          (later ++ further)).2.breakpoints[address]? = none ∧
        Dialogue.gather carryOut (breaksAt address)
          (debugger.carryOutAll (earlier ++ [operation])).2 (later ++ further) = []

theorem Waits.firesOnce {debugger : Debugger} {operations : List (Operation β)}
    (waits : debugger.Waits address name)
    (lasts : ∀ operation ∈ operations, operation.ends .breakpoint address = false) :
    debugger.FiresOnce address name operations where
  waits earlier later split unmet := by
    subst split
    exact waits.carryOutAll (List.forall_mem_append.mp lasts).1 unmet
  fires earlier operation later split unmet arrives := by
    subst split
    exact (waits.carryOutAll (List.forall_mem_append.mp lasts).1 unmet).1.fires arrives
  silent earlier operation later split unmet arrives further unregistered := by
    subst split
    obtain ⟨before, after⟩ := List.forall_mem_append.mp lasts
    rw [List.forall_mem_cons] at after
    have fired := (waits.carryOutAll before unmet).1.fires arrives
    have vacant : (debugger.carryOutAll (earlier ++ [operation])).2.breakpoints[address]? =
        none := by
      rw [Debugger.carryOutAll, Dialogue.run_append]
      exact fired.removed
    refine carryOutAll_vacant vacant (List.forall_mem_append.mpr ⟨?_, unregistered⟩)
    exact fun another member => Operation.unregistered_of_lasts (after.2 another member)

end Debugger

namespace Session

variable {β : Type} [Bus β]

def setTemporaryBreakpoint (session : Session β) (address : UInt16) (name : Option String) :
    Session β :=
  (session.serve (.debugger (.setTemporaryBreakpoint address name))).2

def Request.Spares (address : UInt16) : Request β → Prop
  | debugger operation => operation.ends .breakpoint address = false
  | step | run _ | observe | processor _ => True

theorem lasts_of_mem_trail {session : Session β} {address : UInt16} {requests : List (Request β)}
    (spares : ∀ request ∈ requests, request.Spares address)
    {operation : Debugger.Operation β} (member : operation ∈ session.trail requests) :
    operation.ends .breakpoint address = false := by
  obtain ⟨request, among, met, dealt⟩ := Dialogue.exists_of_mem_gather member
  have spared := spares request among
  cases request with
  | run budget =>
      obtain ⟨outcome, _, rfl⟩ := List.mem_map.mp dealt
      rfl
  | step | observe =>
      rw [List.mem_singleton.mp dealt]
      rfl
  | processor _ => nomatch dealt
  | debugger asked =>
      rw [List.mem_singleton.mp dealt]
      exact spared

/-- A run stops with the step that arrives at the address. A step with which the bus found fault
stops it as well, and its error is what the run returns. -/
def StopsAtArrival (address : UInt16) (session : Session β) : Prop :=
  ∀ budget count, count < (session.stepsFrom budget 0).length →
    (session.after count).debugger.Arrives address
      (.observe (session.after (count + 1)).cpu) →
    (session.stepsFrom budget 0).length = count + 1 ∧
      session.run budget =
        ((session.after count).step.1.map fun _ =>
          { reason := .breakpoint address
            cycles := (session.after (count + 1)).cpu.counters.cycles -
              session.cpu.counters.cycles },
        session.after (count + 1))

theorem after_waits_or_vacant {session : Session β} {address : UInt16} {name : String}
    (waits : session.debugger.Waits address name) (count : Nat) :
    (session.after count).debugger.Waits address name ∨
      (session.after count).debugger.breakpoints[address]? = none := by
  induction count with
  | zero => exact .inl waits
  | succ count ih =>
      rw [after_succ]
      rcases ih with waits | vacant
      · by_cases arrives : (session.after count).debugger.Arrives address
          (.observe (session.after count).cpu.step.2)
        · exact .inr (waits.fires arrives).removed
        · exact .inl (waits.observe arrives).1
      · have unregistered : (Debugger.Operation.observe (session.after count).cpu.step.2).fresh?
            .breakpoint address = none := rfl
        exact .inr (Debugger.carryOut_vacant vacant unregistered).1

theorem stopsAtArrival {session : Session β} {address : UInt16} {name : String}
    (waits : session.debugger.Waits address name) : session.StopsAtArrival address := by
  intro budget count within arrives
  rw [after_succ] at arrives
  have standing : (session.after count).debugger.Waits address name := by
    rcases session.after_waits_or_vacant waits count with waits | vacant
    · exact waits
    · simp [Debugger.Arrives, Debugger.enabled?, vacant] at arrives
  have here : (session.after (count + 1)).cpu.registers.programCounter = address := by
    rw [after_succ]
    exact arrives.2.1
  have queued : Event.breakpointHit address name 1 true ∈ session.lastEvents (count + 1) := by
    have queued := (standing.fires arrives).queued
    rw [Debugger.queued_observe] at queued
    rw [lastEvents, stepEvents_eq]
    exact queued
  obtain ⟨total, firstStop, sameSteps, ran, _⟩ := session.run_stops_first budget
  -- The hit is a reason to stop, so that no run goes on past it.
  have total_eq : total = count + 1 := by
    rw [sameSteps, length_steps] at within
    rcases Nat.lt_or_eq_of_le within with earlier | last
    · exact absurd (.hit queued rfl) (firstStop.first _ earlier)
    · exact last.symm
  subst total_eq
  refine ⟨by rw [sameSteps, length_steps], ?_⟩
  rw [ran, reasonAfter_of_broken queued rfl, here]
  rfl

/-- A temporary breakpoint fires once: at the first arrival while it is switched on, where a run
stops. -/
theorem temporary_fires_once {session : Session β} (active : session.debugger.active = true)
    (address : UInt16) (name : Option String) {requests : List (Request β)}
    (spares : ∀ request ∈ requests, request.Spares address) :
    let armed := session.setTemporaryBreakpoint address name
    (armed.serveAll requests).2.debugger =
        (armed.debugger.carryOutAll (armed.trail requests)).2 ∧
      armed.debugger.FiresOnce address (Breakpoint.createTemporary address name).name
        (armed.trail requests) ∧
      (¬Dialogue.Sometime Debugger.carryOut armed.debugger (armed.trail requests)
          (Debugger.Arrives address) →
        (armed.serveAll requests).2.StopsAtArrival address) := by
  intro armed
  have served := armed.serveAll_debugger requests
  have waits : armed.debugger.Waits address (Breakpoint.createTemporary address name).name :=
    ⟨active, _, Std.TreeMap.getElem?_insert_self,
      Breakpoint.createTemporary_unspent address name⟩
  have lasts : ∀ operation ∈ armed.trail requests, operation.ends .breakpoint address = false :=
    fun _ member => lasts_of_mem_trail spares member
  refine ⟨served, waits.firesOnce lasts, fun unmet => ?_⟩
  have stillWaits := (waits.carryOutAll lasts unmet).1
  rw [← served] at stillWaits
  exact stopsAtArrival stillWaits

def circling : Session FlatMemory :=
  { cpu := { memory := FlatMemory.zeroed.load 0 [0xE8, 0x4C, 0x00, 0x00] }
    debugger := ({} : Debugger).start }

def unnoticed : List (Request FlatMemory) :=
  [.debugger (.enableBreakpoint 1 false), .step, .step, .debugger (.enableBreakpoint 1 true)]

theorem circling_fires_once :
    let armed := circling.setTemporaryBreakpoint 1 none
    let ready := (armed.serveAll unnoticed).2
    circling.debugger.active = true ∧
      (∀ request ∈ unnoticed ++ [.step, .step, .step], request.Spares 1) ∧
      Dialogue.gather Debugger.carryOut (Debugger.breaksAt 1) armed.debugger
          (armed.trail (unnoticed ++ [.step, .step, .step])) =
        [.breakpointHit 1 (Breakpoint.createTemporary 1 none).name 1 true] ∧
      ready.run 100 = (.ok ⟨.breakpoint 1, 2⟩, ready.after 1) := by
  intro armed ready
  have spares : ∀ request ∈ unnoticed ++ [.step, .step, .step], request.Spares 1 := by
    simp [unnoticed, Request.Spares, Debugger.Operation.ends]
  have earlier : ∀ request ∈ unnoticed, request.Spares 1 := (List.forall_mem_append.mp spares).1
  have active : circling.debugger.active = true := rfl
  obtain ⟨_, _, stops⟩ := temporary_fires_once active 1 none earlier
  have unmet : ¬Dialogue.Sometime Debugger.carryOut armed.debugger (armed.trail unnoticed)
      (Debugger.Arrives 1) := by
    decide +kernel
  have begins : 0 < (ready.stepsFrom 100 0).length := by
    rw [List.length_pos_iff, Ne, stepsFrom_eq_nil_iff]
    decide +kernel
  have arrives : (ready.after 0).debugger.Arrives 1 (.observe (ready.after 1).cpu) := by
    decide +kernel
  refine ⟨active, spares, by decide +kernel, (stops unmet 100 0 begins arrives).2.trans ?_⟩
  have result : (ready.after 0).step.1 = .ok 2 := by decide +kernel
  have cycles : (ready.after 1).cpu.counters.cycles - ready.cpu.counters.cycles = 2 := by
    decide +kernel
  change (_, ready.after 1) = (_, ready.after 1)
  rw [result, cycles]
  rfl

end Session

end Nmos6502
