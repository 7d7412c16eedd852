import Nmos6502.Proofs.Run
import Nmos6502.Proofs.StepLog

/-!
One watchpoint in all that becomes of an observed step. Of the log it sees the accesses to
its own address, one after the other, and nothing else that the debugger does touches its
record or queues a hit of it.
-/

namespace Nmos6502

structure WatchHit where
  access : Access
  value : UInt8
  previous : Option UInt8
  deriving DecidableEq, Repr

def Event.hitAt? (address : UInt16) : Event → Option WatchHit
  | watchpointHit _ access value previous _ =>
      if access.address = address then some ⟨access, value, previous⟩ else none
  | breakpointHit .. | conditionFailed .. | traceFull _ => none

def Debugger.hitsAt (debugger : Debugger) (address : UInt16) : List WatchHit :=
  debugger.events.toList.filterMap (Event.hitAt? address)

namespace Watchpoint

variable {β : Type} [Bus β]

def see (watchpoint : Watchpoint) (cpu : Cpu β) (access : Access) :
    Watchpoint × Option WatchHit :=
  let (noticed, event) :=
    watchpoint.notice access (Debugger.valueSeen cpu access) cpu.registers cpu.counters
  (noticed, event.bind (Event.hitAt? access.address))

def seeAll (watchpoint : Watchpoint) (cpu : Cpu β) (address : UInt16) :
    List Access → Watchpoint × List WatchHit
  | [] => (watchpoint, [])
  | access :: rest =>
      if access.address = address then
        let (noticed, hit) := watchpoint.see cpu access
        let (finished, later) := noticed.seeAll cpu address rest
        (finished, hit.toList ++ later)
      else watchpoint.seeAll cpu address rest

theorem seeAll_here (watchpoint : Watchpoint) (cpu : Cpu β) {address : UInt16} {access : Access}
    (rest : List Access) (here : access.address = address) :
    watchpoint.seeAll cpu address (access :: rest) =
      (((watchpoint.see cpu access).1.seeAll cpu address rest).1,
        (watchpoint.see cpu access).2.toList ++
          ((watchpoint.see cpu access).1.seeAll cpu address rest).2) := by
  rw [seeAll, if_pos here]

theorem seeAll_elsewhere (watchpoint : Watchpoint) (cpu : Cpu β) {address : UInt16}
    {access : Access} (rest : List Access) (elsewhere : access.address ≠ address) :
    watchpoint.seeAll cpu address (access :: rest) = watchpoint.seeAll cpu address rest := by
  rw [seeAll, if_neg elsewhere]

/-- A watchpoint either lets an access pass or reports it and takes over what it has seen. -/
theorem see_cases (watchpoint : Watchpoint) (cpu : Cpu β) (access : Access) :
    (watchpoint.see cpu access).1.filter = watchpoint.filter ∧
      (((watchpoint.see cpu access).1.lastValue = watchpoint.lastValue ∧
          (watchpoint.see cpu access).2 = none) ∨
        (watchpoint.filter.admits access.kind
            (Debugger.valueSeen cpu access != watchpoint.lastValue) = true ∧
          (watchpoint.see cpu access).1.lastValue =
            (Debugger.valueSeen cpu access).or watchpoint.lastValue ∧
          (watchpoint.see cpu access).2 =
            some ⟨access, (Debugger.valueSeen cpu access).getD access.value,
              watchpoint.lastValue⟩)) := by
  simp only [see, notice]
  split
  · rename_i admitted
    simp only [Bool.and_eq_true] at admitted
    split
    · exact ⟨rfl, .inr ⟨admitted.2, rfl, by simp [Event.hitAt?]⟩⟩
    · exact ⟨rfl, .inl ⟨rfl, rfl⟩⟩
    · split
      · exact ⟨rfl, .inl ⟨rfl, rfl⟩⟩
      · exact ⟨rfl, .inl ⟨rfl, rfl⟩⟩
  · exact ⟨rfl, .inl ⟨rfl, rfl⟩⟩

/-- A watchpoint that is switched on and has no condition. -/
structure Watching (filter : AccessFilter) (watchpoint : Watchpoint) : Prop where
  enabled : watchpoint.enabled = true
  unconditional : watchpoint.condition = none
  filter : watchpoint.filter = filter

theorem create_watching (address : UInt16) (filter : AccessFilter) (name : Option String)
    (seen : Option UInt8) : Watching filter (create address filter none name seen) :=
  ⟨rfl, rfl, rfl⟩

theorem see_admitted {filter : AccessFilter} {watchpoint : Watchpoint}
    (watching : Watching filter watchpoint) {cpu : Cpu β} {access : Access}
    (admitted : filter.admits access.kind
      (Debugger.valueSeen cpu access != watchpoint.lastValue) = true) :
    watchpoint.see cpu access =
      ({ watchpoint with
          toTrigger := watchpoint.countHit cpu.counters
          lastValue := (Debugger.valueSeen cpu access).or watchpoint.lastValue },
        some ⟨access, (Debugger.valueSeen cpu access).getD access.value,
          watchpoint.lastValue⟩) := by
  simp [see, notice, Trigger.decide, watching.enabled, watching.unconditional, watching.filter,
    admitted, Event.hitAt?]

theorem see_ignored {filter : AccessFilter} {watchpoint : Watchpoint}
    (watching : Watching filter watchpoint) {cpu : Cpu β} {access : Access}
    (ignored : filter.admits access.kind
      (Debugger.valueSeen cpu access != watchpoint.lastValue) = false) :
    watchpoint.see cpu access = (watchpoint, none) := by
  simp [see, notice, watching.filter, ignored]

theorem see_watching {filter : AccessFilter} {watchpoint : Watchpoint}
    (watching : Watching filter watchpoint) (cpu : Cpu β) (access : Access) :
    Watching filter (watchpoint.see cpu access).1 := by
  rcases admitted : filter.admits access.kind
    (Debugger.valueSeen cpu access != watchpoint.lastValue) with _ | _
  · rw [see_ignored watching admitted]
    exact watching
  · rw [see_admitted watching admitted]
    exact ⟨watching.enabled, watching.unconditional, watching.filter⟩

theorem notice_elsewhere (watchpoint : Watchpoint) {access : Access} {address : UInt16}
    (elsewhere : access.address ≠ address) (seen : Option UInt8) (registers : Registers)
    (counters : Counters) :
    (watchpoint.notice access seen registers counters).2.bind (Event.hitAt? address) = none := by
  simp only [notice]
  split
  · split
    · simp [Event.hitAt?, elsewhere]
    · rfl
    · split <;> rfl
  · rfl

end Watchpoint

namespace Debugger

structure Kept (address : UInt16) (before after : Debugger) : Prop where
  record : after.watchpoints[address]? = before.watchpoints[address]?
  hits : after.hitsAt address = before.hitsAt address
  active : after.active = before.active

structure Shown (address : UInt16) (before after : Debugger) (watchpoint : Watchpoint)
    (hits : List WatchHit) : Prop where
  record : after.watchpoints[address]? = some watchpoint
  hits : after.hitsAt address = before.hitsAt address ++ hits
  active : after.active = before.active

theorem Kept.refl (address : UInt16) (debugger : Debugger) : Kept address debugger debugger :=
  ⟨rfl, rfl, rfl⟩

theorem Kept.trans {address : UInt16} {before middle after : Debugger}
    (start : Kept address before middle) (finish : Kept address middle after) :
    Kept address before after :=
  ⟨finish.record.trans start.record, finish.hits.trans start.hits,
    finish.active.trans start.active⟩

theorem Kept.shown {address : UInt16} {before middle after : Debugger} {watchpoint : Watchpoint}
    {hits : List WatchHit} (start : Kept address before middle)
    (finish : Shown address middle after watchpoint hits) :
    Shown address before after watchpoint hits :=
  ⟨finish.record, start.hits ▸ finish.hits, finish.active.trans start.active⟩

theorem Shown.kept {address : UInt16} {before middle after : Debugger} {watchpoint : Watchpoint}
    {hits : List WatchHit} (start : Shown address before middle watchpoint hits)
    (finish : Kept address middle after) : Shown address before after watchpoint hits :=
  ⟨finish.record.trans start.record, finish.hits.trans start.hits,
    finish.active.trans start.active⟩

theorem Shown.trans {address : UInt16} {before middle after : Debugger}
    {first last : Watchpoint} {firstHits lastHits : List WatchHit}
    (start : Shown address before middle first firstHits)
    (finish : Shown address middle after last lastHits) :
    Shown address before after last (firstHits ++ lastHits) :=
  ⟨finish.record, by rw [finish.hits, start.hits, List.append_assoc],
    finish.active.trans start.active⟩

theorem hitsAt_report (debugger : Debugger) (event : Event) (address : UInt16) :
    (debugger.report event).hitsAt address =
      debugger.hitsAt address ++ (event.hitAt? address).toList := by
  simp only [hitsAt, report, Array.toList_push, List.filterMap_append]
  rcases found : event.hitAt? address with _ | hit
  · simp [found]
  · simp [found]

theorem hitsAt_reportAny (debugger : Debugger) (event : Option Event) (address : UInt16) :
    (debugger.reportAny event).hitsAt address =
      debugger.hitsAt address ++ (event.bind (Event.hitAt? address)).toList := by
  cases event with
  | none => simp [reportAny]
  | some event => exact hitsAt_report debugger event address

theorem reportAny_watchpoints (debugger : Debugger) (event : Option Event) :
    (debugger.reportAny event).watchpoints = debugger.watchpoints := by
  cases event <;> rfl

theorem reportAny_active (debugger : Debugger) (event : Option Event) :
    (debugger.reportAny event).active = debugger.active := by
  cases event <;> rfl

theorem reportAny_kept {address : UInt16} {event : Option Event} (debugger : Debugger)
    (unrelated : event.bind (Event.hitAt? address) = none) :
    Kept address debugger (debugger.reportAny event) :=
  ⟨by rw [reportAny_watchpoints], by simp [hitsAt_reportAny, unrelated], reportAny_active _ _⟩

theorem traceInstruction_kept (address : UInt16) (debugger : Debugger) (entry : TraceEntry) :
    Kept address debugger (debugger.traceInstruction entry) := by
  simp only [traceInstruction]
  split
  · exact .refl address debugger
  · rename_i trace _
    split
    · exact ⟨rfl, by simp [hitsAt, report, Event.hitAt?], rfl⟩
    · exact ⟨rfl, rfl, rfl⟩

variable {β : Type}

theorem meetBreakpoint_kept (address : UInt16) (debugger : Debugger) (cpu : Cpu β) :
    Kept address debugger (debugger.meetBreakpoint cpu).1 := by
  simp only [meetBreakpoint]
  split
  · exact .refl address debugger
  · rename_i breakpoint _
    have unrelated : (breakpoint.meet cpu.registers.programCounter cpu.registers
        cpu.counters).2.bind (Event.hitAt? address) = none := by
      simp only [Breakpoint.meet]
      split
      · split
        · rfl
        · rfl
        · split <;> rfl
      · rfl
    refine .trans ?_ (reportAny_kept _ unrelated)
    split <;> exact ⟨rfl, rfl, rfl⟩

variable [Bus β]

theorem watchAccess_elsewhere {address : UInt16} {access : Access} (debugger : Debugger)
    (cpu : Cpu β) (elsewhere : access.address ≠ address) :
    Kept address debugger (debugger.watchAccess cpu access).1 := by
  simp only [watchAccess]
  split
  · exact .refl address debugger
  · rename_i watchpoint _
    have unrelated := watchpoint.notice_elsewhere elsewhere (valueSeen cpu access) cpu.registers
      cpu.counters
    generalize watchpoint.notice access (valueSeen cpu access) cpu.registers cpu.counters =
      noticed at unrelated ⊢
    have stored : Kept address debugger (debugger.putWatchpoint access.address noticed.1) :=
      ⟨by simp [putWatchpoint, Std.TreeMap.getElem?_insert, elsewhere], rfl, rfl⟩
    exact stored.trans (reportAny_kept _ unrelated)

theorem watchAccess_here {access : Access} {debugger : Debugger} {watchpoint : Watchpoint}
    (cpu : Cpu β) (present : debugger.watchpoints[access.address]? = some watchpoint) :
    Shown access.address debugger (debugger.watchAccess cpu access).1
      (watchpoint.see cpu access).1 (watchpoint.see cpu access).2.toList := by
  simp only [watchAccess, present, Watchpoint.see]
  generalize watchpoint.notice access (valueSeen cpu access) cpu.registers cpu.counters = noticed
  refine ⟨?_, hitsAt_reportAny _ _ _, reportAny_active _ _⟩
  rw [reportAny_watchpoints]
  simp [putWatchpoint]

theorem watchAccesses_shown {address : UInt16} {debugger : Debugger} {watchpoint : Watchpoint}
    (cpu : Cpu β) (log : List Access)
    (present : debugger.watchpoints[address]? = some watchpoint) :
    Shown address debugger (debugger.watchAccesses cpu log).1
      (watchpoint.seeAll cpu address log).1 (watchpoint.seeAll cpu address log).2 := by
  induction log generalizing debugger watchpoint with
  | nil => exact ⟨present, by simp [watchAccesses, Watchpoint.seeAll], rfl⟩
  | cons access rest ih =>
      simp only [watchAccesses]
      by_cases here : access.address = address
      · rw [watchpoint.seeAll_here cpu rest here]
        subst here
        have first := watchAccess_here cpu present
        exact first.trans (ih first.record)
      · rw [watchpoint.seeAll_elsewhere cpu rest here]
        have first := debugger.watchAccess_elsewhere cpu here
        exact first.shown (ih (first.record.trans present))

theorem lookAround_shown {address : UInt16} {debugger : Debugger} {watchpoint : Watchpoint}
    (cpu : Cpu β) (present : debugger.watchpoints[address]? = some watchpoint) :
    Shown address debugger (debugger.lookAround cpu).1
      (watchpoint.seeAll cpu address cpu.accesses).1
      (watchpoint.seeAll cpu address cpu.accesses).2 :=
  (watchAccesses_shown cpu cpu.accesses present).kept (meetBreakpoint_kept _ _ _)

theorem observe_shown {address : UInt16} {debugger : Debugger} {watchpoint : Watchpoint}
    (cpu : Cpu β) (present : debugger.watchpoints[address]? = some watchpoint)
    (active : debugger.active = true)
    (idle : cpu.lastStep = .nothing ∨ cpu.lastStep = .halted → cpu.accesses = []) :
    Shown address debugger (debugger.observe cpu).1
      (watchpoint.seeAll cpu address cpu.accesses).1
      (watchpoint.seeAll cpu address cpu.accesses).2 := by
  simp only [observe, active, if_true]
  split
  · rename_i last
    rw [idle (.inl last)]
    exact ⟨present, by simp [Watchpoint.seeAll], rfl⟩
  · rename_i last
    rw [idle (.inr last)]
    exact ⟨present, by simp [Watchpoint.seeAll], rfl⟩
  · exact lookAround_shown cpu present
  · rename_i instruction last
    have traced := debugger.traceInstruction_kept address ⟨instruction, cpu.registers⟩
    exact traced.shown (lookAround_shown cpu (traced.record.trans present))

theorem watchAccess_active (debugger : Debugger) (cpu : Cpu β) (access : Access) :
    (debugger.watchAccess cpu access).1.active = debugger.active := by
  simp only [watchAccess]
  split
  · rfl
  · exact reportAny_active _ _

theorem watchAccesses_active (debugger : Debugger) (cpu : Cpu β) (log : List Access) :
    (debugger.watchAccesses cpu log).1.active = debugger.active := by
  induction log generalizing debugger with
  | nil => rfl
  | cons access rest ih => exact (ih _).trans (debugger.watchAccess_active cpu access)

theorem observe_active (debugger : Debugger) (cpu : Cpu β) :
    (debugger.observe cpu).1.active = debugger.active := by
  have lookAround (debugger : Debugger) :
      (debugger.lookAround cpu).1.active = debugger.active :=
    (meetBreakpoint_kept 0 _ cpu).active.trans (debugger.watchAccesses_active cpu _)
  simp only [observe]
  split
  · split
    · rfl
    · rfl
    · exact lookAround debugger
    · rename_i instruction _
      exact (lookAround _).trans
        (debugger.traceInstruction_kept 0 ⟨instruction, cpu.registers⟩).active
  · rfl

end Debugger

namespace Session

variable {β : Type} [Bus β]

def watch (session : Session β) (address : UInt16) (filter : AccessFilter)
    (condition : Option Condition) (name : Option String) : Session β :=
  (session.setWatchpoint address filter condition name).2

theorem watch_record (session : Session β) (address : UInt16) (filter : AccessFilter)
    (condition : Option Condition) (name : Option String) :
    (session.watch address filter condition name).debugger.watchpoints[address]? =
      some (Watchpoint.create address filter condition name
        (Bus.peek session.cpu.memory address)) := by
  simp [watch, setWatchpoint, Debugger.setWatchpoint, Debugger.putWatchpoint]

theorem step_shown {session : Session β} {address : UInt16} {watchpoint : Watchpoint}
    (present : session.debugger.watchpoints[address]? = some watchpoint)
    (recording : session.cpu.config.recordAccesses = true)
    (active : session.debugger.active = true) :
    Debugger.Shown address session.debugger session.step.2.debugger
      (watchpoint.seeAll session.cpu.step.2 address session.cpu.stepAccesses).1
      (watchpoint.seeAll session.cpu.step.2 address session.cpu.stepAccesses).2 := by
  have accesses := Cpu.step_accesses_recording recording
  have shown := Debugger.observe_shown session.cpu.step.2 present active fun idle =>
    accesses.trans (Cpu.stepAccesses_idle idle)
  rwa [accesses] at shown

/-- Something happened between steps that touched neither memory nor the watchpoint at an
address. -/
structure Aside (address : UInt16) (before after : Session β) : Prop where
  memory : after.cpu.memory = before.cpu.memory
  record : after.debugger.watchpoints[address]? = before.debugger.watchpoints[address]?

/-- The sessions that observed steps lead to, each with the accesses recorded on the way.
Between the steps anything may happen that leaves memory and the watchpoint alone. -/
inductive Course (address : UInt16) (start : Session β) : List Access → Session β → Prop
  | start : Course address start [] start
  | aside {log before after} : Course address start log before → Aside address before after →
      Course address start log after
  | step {log before} : Course address start log before →
      before.cpu.config.recordAccesses = true → before.debugger.active = true →
      Course address start (log ++ before.step.2.cpu.accesses) before.step.2

theorem Course.after {address : UInt16} {start session : Session β} {log : List Access}
    (course : Course address start log session)
    (recording : session.cpu.config.recordAccesses = true)
    (active : session.debugger.active = true) (count : Nat) :
    ∃ later, Course address start (log ++ later) (session.after count) := by
  induction count generalizing log session with
  | zero => exact ⟨[], by rwa [List.append_nil]⟩
  | succ count ih =>
      have stillRecording : session.step.2.cpu.config.recordAccesses = true :=
        (congrArg CpuConfig.recordAccesses session.cpu.step_config).trans recording
      have stillActive : session.step.2.debugger.active = true :=
        (session.debugger.observe_active session.cpu.step.2).trans active
      obtain ⟨later, continued⟩ := ih (course.step recording active) stillRecording stillActive
      rw [List.append_assoc] at continued
      exact ⟨session.step.2.cpu.accesses ++ later, continued⟩

end Session

end Nmos6502
