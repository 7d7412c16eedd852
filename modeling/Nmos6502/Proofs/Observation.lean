import Nmos6502.Proofs.Triggers
import Nmos6502.Proofs.WatchRecord

/-!
The events that an observation queues, part by part. They are all that it has to say: where a
breakpoint was hit and which access was the first that hit a watchpoint can be read off them.
-/

namespace Nmos6502

namespace Event

def broken? : Event → Option UInt16
  | breakpointHit address .. => some address
  | watchpointHit .. | conditionFailed .. | traceFull _ => none

def watched? : Event → Option Access
  | watchpointHit _ access .. => some access
  | breakpointHit .. | conditionFailed .. | traceFull _ => none

end Event

def Sighting.ofEvents (events : List Event) : Sighting where
  breakpoint := (events.filterMap Event.broken?).head?
  watchpoint := (events.filterMap Event.watched?).head?.map Access.address

namespace Breakpoint

variable (breakpoint : Breakpoint) (address : UInt16) (registers : Registers)
  (counters : Counters)

theorem meet_broken :
    (breakpoint.meet address registers counters).2.bind Event.broken? =
      if (breakpoint.meet address registers counters).2.any Event.isHit then some address
      else none := by
  rcases breakpoint.meet_cases address registers counters with
    ⟨_, met⟩ | ⟨_, met⟩ | ⟨_, met⟩ | ⟨_, _, met⟩ <;> rw [met]
  case inr.inr.inr => cases breakpoint.failed <;> rfl
  all_goals rfl

theorem meet_watched :
    (breakpoint.meet address registers counters).2.bind Event.watched? = none :=
  Option.bind_eq_none_iff.mpr (meet_events (fun _ _ _ => rfl) fun _ _ => rfl)

end Breakpoint

namespace Watchpoint

variable (watchpoint : Watchpoint) (access : Access) (seen : Option UInt8)
  (registers : Registers) (counters : Counters)

theorem notice_watched :
    (watchpoint.notice access seen registers counters).2.bind Event.watched? =
      if (watchpoint.notice access seen registers counters).2.any Event.isHit then some access
      else none := by
  rcases watchpoint.notice_cases access seen registers counters with
    ⟨_, met⟩ | ⟨_, met⟩ | ⟨_, met⟩ | ⟨_, _, met⟩ <;> rw [met]
  case inr.inr.inr => cases watchpoint.failed <;> rfl
  all_goals rfl

theorem notice_broken :
    (watchpoint.notice access seen registers counters).2.bind Event.broken? = none :=
  Option.bind_eq_none_iff.mpr (notice_events (fun _ _ _ _ => rfl) fun _ _ => rfl)

end Watchpoint

theorem filterMap_toList {α γ : Type} (found : Option α) (pick : α → Option γ) :
    found.toList.filterMap pick = (found.bind pick).toList := by
  cases found with
  | none => rfl
  | some value => cases picked : pick value <;> simp [picked]

namespace Debugger

/-- The events that have been queued from one moment to another, if none were taken. -/
def queuedSince (before after : Debugger) : List Event :=
  after.events.toList.drop before.events.size

def Queues (before after : Debugger) (events : List Event) : Prop :=
  after.events.toList = before.events.toList ++ events

theorem Queues.nil {before after : Debugger} (same : after.events = before.events) :
    Queues before after [] := by
  rw [Queues, same, List.append_nil]

theorem Queues.trans {before middle after : Debugger} {earlier later : List Event}
    (start : Queues before middle earlier) (finish : Queues middle after later) :
    Queues before after (earlier ++ later) := by
  rw [Queues, finish, start, List.append_assoc]

theorem Queues.of_same {before middle after : Debugger} {events : List Event}
    (same : middle.events = before.events) (queues : Queues middle after events) :
    Queues before after events := by
  rw [Queues, ← same]
  exact queues

theorem Queues.queuedSince_eq {before after : Debugger} {events : List Event}
    (queues : Queues before after events) : queuedSince before after = events := by
  rw [queuedSince, queues, ← Array.length_toList, List.drop_left]

theorem reportAny_queues (debugger : Debugger) (event : Option Event) :
    Queues debugger (debugger.reportAny event) event.toList := by
  cases event with
  | none => exact .nil rfl
  | some event => exact Array.toList_push

theorem reportAny_breakpoints (debugger : Debugger) (event : Option Event) :
    (debugger.reportAny event).breakpoints = debugger.breakpoints := by
  cases event <;> rfl

section

variable {β : Type} (debugger : Debugger) (cpu : Cpu β)

def looksAt : Bool :=
  debugger.active &&
    match cpu.lastStep with
    | .nothing | .halted => false
    | .interrupt _ | .executed _ => true

def traced : Debugger :=
  match cpu.lastStep with
  | .executed instruction => debugger.traceInstruction ⟨instruction, cpu.registers⟩
  | .nothing | .halted | .interrupt _ => debugger

def tracedEvents : List Event :=
  match cpu.lastStep, debugger.trace with
  | .executed _, some trace => if trace.fillsUp then [.traceFull trace.capacity] else []
  | _, _ => []

theorem traced_queues : Queues debugger (debugger.traced cpu) (debugger.tracedEvents cpu) := by
  rcases last : cpu.lastStep with _ | instruction | source | _
  · simp only [traced, tracedEvents, last]
    exact .nil rfl
  · rcases underWay : debugger.trace with _ | trace
    · simp only [traced, tracedEvents, last, traceInstruction, underWay]
      exact .nil rfl
    · simp only [traced, tracedEvents, last, traceInstruction, underWay]
      split
      · exact Array.toList_push
      · exact .nil rfl
  · simp only [traced, tracedEvents, last]
    exact .nil rfl
  · simp only [traced, tracedEvents, last]
    exact .nil rfl

theorem exists_traceFull_of_mem_tracedEvents {event : Event}
    (member : event ∈ debugger.tracedEvents cpu) : ∃ capacity, event = .traceFull capacity := by
  simp only [tracedEvents] at member
  split at member
  · split at member
    · exact ⟨_, List.mem_singleton.mp member⟩
    · nomatch member
  · nomatch member

theorem filterMap_tracedEvents {γ : Type} (pick : Event → Option γ)
    (unrelated : ∀ capacity, pick (.traceFull capacity) = none) :
    (debugger.tracedEvents cpu).filterMap pick = [] := by
  rw [List.filterMap_eq_nil_iff]
  intro event member
  obtain ⟨capacity, rfl⟩ := debugger.exists_traceFull_of_mem_tracedEvents cpu member
  exact unrelated capacity

end

section

variable {β : Type} (debugger : Debugger) (cpu : Cpu β)

def arrivalEvent? : Option Event :=
  debugger.breakpoints[cpu.registers.programCounter]?.bind fun breakpoint =>
    (breakpoint.meet cpu.registers.programCounter cpu.registers cpu.counters).2

theorem meetBreakpoint_queues :
    Queues debugger (debugger.meetBreakpoint cpu).1 (debugger.arrivalEvent? cpu).toList := by
  rcases present : debugger.breakpoints[cpu.registers.programCounter]? with _ | breakpoint
  · simp only [meetBreakpoint, arrivalEvent?, present]
    exact .nil rfl
  · simp only [meetBreakpoint, arrivalEvent?, present]
    refine .of_same ?_ (reportAny_queues _ _)
    split <;> rfl

theorem meetBreakpoint_sighting :
    (debugger.meetBreakpoint cpu).2 = (debugger.arrivalEvent? cpu).bind Event.broken? := by
  rcases present : debugger.breakpoints[cpu.registers.programCounter]? with _ | breakpoint
  · simp only [meetBreakpoint, arrivalEvent?, present]
    rfl
  · simp only [meetBreakpoint, arrivalEvent?, present]
    exact (breakpoint.meet_broken _ _ _).symm

theorem arrivalEvent?_watched : (debugger.arrivalEvent? cpu).bind Event.watched? = none := by
  rw [arrivalEvent?, Option.bind_assoc]
  exact Option.bind_eq_none_iff.mpr fun breakpoint _ => breakpoint.meet_watched _ _ _

end

section

variable {β : Type} [Bus β] (debugger : Debugger) (cpu : Cpu β) (access : Access)

def accessEvent? : Option Event :=
  debugger.watchpoints[access.address]?.bind fun watchpoint =>
    (watchpoint.notice access (valueSeen cpu access) cpu.registers cpu.counters).2

theorem watchAccess_queues :
    Queues debugger (debugger.watchAccess cpu access).1
      (debugger.accessEvent? cpu access).toList := by
  rcases present : debugger.watchpoints[access.address]? with _ | watchpoint
  · simp only [watchAccess, accessEvent?, present]
    exact .nil rfl
  · simp only [watchAccess, accessEvent?, present]
    exact .of_same rfl (reportAny_queues _ _)

theorem accessEvent?_watched :
    (debugger.accessEvent? cpu access).bind Event.watched? =
      if (debugger.watchAccess cpu access).2 then some access else none := by
  rcases present : debugger.watchpoints[access.address]? with _ | watchpoint
  · simp only [watchAccess, accessEvent?, present]
    rfl
  · simp only [watchAccess, accessEvent?, present]
    exact watchpoint.notice_watched _ _ _ _

theorem watchAccess_breakpoints :
    (debugger.watchAccess cpu access).1.breakpoints = debugger.breakpoints := by
  rcases present : debugger.watchpoints[access.address]? with _ | watchpoint
  · simp only [watchAccess, present]
  · simp only [watchAccess, present]
    exact reportAny_breakpoints _ _

end

section

variable {β : Type} [Bus β]

def accessEvents (debugger : Debugger) (cpu : Cpu β) : List Access → List Event
  | [] => []
  | access :: rest =>
      (debugger.accessEvent? cpu access).toList ++
        (debugger.watchAccess cpu access).1.accessEvents cpu rest

variable (debugger : Debugger) (cpu : Cpu β) (log : List Access)

theorem watchAccesses_queues :
    Queues debugger (debugger.watchAccesses cpu log).1 (debugger.accessEvents cpu log) := by
  induction log generalizing debugger with
  | nil => exact .nil rfl
  | cons access rest ih => exact (debugger.watchAccess_queues cpu access).trans (ih _)

theorem watchAccesses_breakpoints :
    (debugger.watchAccesses cpu log).1.breakpoints = debugger.breakpoints := by
  induction log generalizing debugger with
  | nil => rfl
  | cons access rest ih => exact (ih _).trans (debugger.watchAccess_breakpoints cpu access)

theorem watchAccesses_sighting :
    (debugger.watchAccesses cpu log).2 =
      ((debugger.accessEvents cpu log).filterMap Event.watched?).head?.map Access.address := by
  induction log generalizing debugger with
  | nil => rfl
  | cons access rest ih =>
      rw [accessEvents, List.filterMap_append, filterMap_toList, accessEvent?_watched]
      simp only [watchAccesses, ih]
      split <;> rfl

theorem filterMap_accessEvents {γ : Type} {pick : Event → Option γ}
    (unrelated : ∀ (watchpoint : Watchpoint) access seen registers counters,
      (watchpoint.notice access seen registers counters).2.bind pick = none) :
    (debugger.accessEvents cpu log).filterMap pick = [] := by
  induction log generalizing debugger with
  | nil => rfl
  | cons access rest ih =>
      have silent : (debugger.accessEvent? cpu access).bind pick = none := by
        rw [accessEvent?, Option.bind_assoc]
        exact Option.bind_eq_none_iff.mpr fun watchpoint _ => unrelated watchpoint _ _ _ _
      rw [accessEvents, List.filterMap_append, filterMap_toList, silent, ih]
      rfl

theorem accessEvents_broken : (debugger.accessEvents cpu log).filterMap Event.broken? = [] :=
  debugger.filterMap_accessEvents cpu log Watchpoint.notice_broken

theorem accessEvents_watched :
    ((debugger.accessEvents cpu log).filterMap Event.watched?).Sublist log := by
  induction log generalizing debugger with
  | nil => exact .slnil
  | cons access rest ih =>
      rw [accessEvents, List.filterMap_append, filterMap_toList, accessEvent?_watched]
      split
      · exact (ih _).cons_cons access
      · exact (ih _).cons access

end

section

variable {β : Type} [Bus β] (debugger : Debugger) (cpu : Cpu β)

def lookEvents : List Event :=
  debugger.accessEvents cpu cpu.accesses ++ (debugger.arrivalEvent? cpu).toList

theorem lookAround_queues :
    Queues debugger (debugger.lookAround cpu).1 (debugger.lookEvents cpu) := by
  have met := meetBreakpoint_queues (debugger.watchAccesses cpu cpu.accesses).1 cpu
  rw [arrivalEvent?, watchAccesses_breakpoints] at met
  exact (debugger.watchAccesses_queues cpu cpu.accesses).trans met

theorem filterMap_broken_lookEvents :
    (debugger.lookEvents cpu).filterMap Event.broken? =
      ((debugger.arrivalEvent? cpu).bind Event.broken?).toList := by
  rw [lookEvents, List.filterMap_append, filterMap_toList, accessEvents_broken, List.nil_append]

theorem filterMap_watched_lookEvents :
    (debugger.lookEvents cpu).filterMap Event.watched? =
      (debugger.accessEvents cpu cpu.accesses).filterMap Event.watched? := by
  rw [lookEvents, List.filterMap_append, filterMap_toList, arrivalEvent?_watched,
    Option.toList_none, List.append_nil]

theorem lookAround_sighting :
    (debugger.lookAround cpu).2 = Sighting.ofEvents (debugger.lookEvents cpu) := by
  have met := meetBreakpoint_sighting (debugger.watchAccesses cpu cpu.accesses).1 cpu
  rw [arrivalEvent?, watchAccesses_breakpoints] at met
  rw [Sighting.ofEvents, filterMap_broken_lookEvents, filterMap_watched_lookEvents,
    Option.head?_toList, ← watchAccesses_sighting]
  exact congrArg (Sighting.mk · _) met

theorem observe_eq :
    debugger.observe cpu =
      if debugger.looksAt cpu then (debugger.traced cpu).lookAround cpu else (debugger, {}) := by
  rcases active : debugger.active with _ | _
  · simp [observe, looksAt, active]
  · rcases last : cpu.lastStep with _ | instruction | source | _ <;>
      simp [observe, looksAt, traced, active, last]

def observedEvents : List Event :=
  if debugger.looksAt cpu then
    debugger.tracedEvents cpu ++ (debugger.traced cpu).lookEvents cpu
  else []

theorem observe_queues :
    Queues debugger (debugger.observe cpu).1 (debugger.observedEvents cpu) := by
  rw [observe_eq, observedEvents]
  split
  · exact (debugger.traced_queues cpu).trans (lookAround_queues _ cpu)
  · exact .nil rfl

/-- The events tell all that an observation sights. -/
theorem observe_sighting :
    (debugger.observe cpu).2 = Sighting.ofEvents (debugger.observedEvents cpu) := by
  rw [observe_eq, observedEvents]
  split
  · rw [lookAround_sighting, Sighting.ofEvents, Sighting.ofEvents, List.filterMap_append,
      List.filterMap_append, filterMap_tracedEvents _ _ _ fun _ => rfl,
      filterMap_tracedEvents _ _ _ fun _ => rfl, List.nil_append, List.nil_append]
  · rfl

theorem observedEvents_watched :
    ((debugger.observedEvents cpu).filterMap Event.watched?).Sublist cpu.accesses := by
  rw [observedEvents]
  split
  · rw [List.filterMap_append, filterMap_tracedEvents _ _ _ fun _ => rfl,
      filterMap_watched_lookEvents]
    exact accessEvents_watched _ cpu cpu.accesses
  · exact List.nil_sublist _

theorem queuedSince_observe :
    queuedSince debugger (debugger.observe cpu).1 = debugger.observedEvents cpu :=
  (debugger.observe_queues cpu).queuedSince_eq

theorem observedEvents_broken :
    ∀ address ∈ (debugger.observedEvents cpu).filterMap Event.broken?,
      address = cpu.registers.programCounter := by
  rw [observedEvents]
  split
  · rw [List.filterMap_append, filterMap_tracedEvents _ _ _ fun _ => rfl,
      filterMap_broken_lookEvents, ← meetBreakpoint_sighting, List.nil_append]
    intro address member
    simp only [meetBreakpoint, Option.mem_toList] at member
    split at member
    · cases member
    · simp only at member
      split at member
      · exact (Option.some.inj member).symm
      · cases member
  · simp

end

end Debugger

namespace Debugger

variable {β : Type}

theorem traced_records (debugger : Debugger) (cpu : Cpu β) :
    (debugger.traced cpu).breakpoints = debugger.breakpoints ∧
      (debugger.traced cpu).watchpoints = debugger.watchpoints := by
  simp only [traced]
  split
  · simp only [traceInstruction]
    split
    · exact ⟨rfl, rfl⟩
    · split <;> exact ⟨rfl, rfl⟩
  all_goals exact ⟨rfl, rfl⟩

theorem meetBreakpoint_breakpoints (debugger : Debugger) (cpu : Cpu β) (address : UInt16) :
    (debugger.meetBreakpoint cpu).1.breakpoints[address]? =
      if cpu.registers.programCounter = address then
        debugger.breakpoints[address]?.bind fun breakpoint =>
          (breakpoint.meet address cpu.registers cpu.counters).1
      else debugger.breakpoints[address]? := by
  rcases there : debugger.breakpoints[cpu.registers.programCounter]? with _ | arrived
  · simp only [meetBreakpoint, there]
    split
    · rename_i here
      rw [← here, there]
      rfl
    · rfl
  · simp only [meetBreakpoint, there, reportAny_breakpoints]
    rcases met : (arrived.meet cpu.registers.programCounter cpu.registers cpu.counters).1 with
      _ | kept
    · simp only [dropBreakpoint, Std.TreeMap.getElem?_erase, Std.compare_eq_iff_eq]
      split
      · rename_i here
        rw [← here, there, Option.bind_some, met]
      · rfl
    · simp only [putBreakpoint, Std.TreeMap.getElem?_insert, Std.compare_eq_iff_eq]
      split
      · rename_i here
        rw [← here, there, Option.bind_some, met]
      · rfl

/-- No observation puts a breakpoint where there was none, or makes one stand that did not. -/
theorem meetBreakpoint_standing {debugger : Debugger} {cpu : Cpu β} {address : UInt16}
    {breakpoint : Breakpoint} (standing : breakpoint.Standing)
    (present : (debugger.meetBreakpoint cpu).1.breakpoints[address]? = some breakpoint) :
    ∃ before, debugger.breakpoints[address]? = some before ∧ before.Standing := by
  rw [meetBreakpoint_breakpoints] at present
  split at present
  · obtain ⟨before, there, met⟩ := Option.bind_eq_some_iff.mp present
    have same := Breakpoint.meet_keeps met
    exact ⟨before, there, same.1 ▸ standing.enabled, same.2 ▸ standing.unconditional⟩
  · exact ⟨breakpoint, present, standing⟩

variable [Bus β]

theorem observe_standing {debugger : Debugger} {cpu : Cpu β} {address : UInt16}
    {breakpoint : Breakpoint} (standing : breakpoint.Standing)
    (present : (debugger.observe cpu).1.breakpoints[address]? = some breakpoint) :
    ∃ before, debugger.breakpoints[address]? = some before ∧ before.Standing := by
  rw [observe_eq] at present
  split at present
  · obtain ⟨before, there, stood⟩ := meetBreakpoint_standing standing present
    rw [watchAccesses_breakpoints, (traced_records _ _).1] at there
    exact ⟨before, there, stood⟩
  · exact ⟨breakpoint, present, standing⟩

theorem exists_hit_of_standing {debugger : Debugger} {cpu : Cpu β} {breakpoint : Breakpoint}
    (standing : breakpoint.Standing) (looks : debugger.looksAt cpu = true)
    (present : debugger.breakpoints[cpu.registers.programCounter]? = some breakpoint) :
    ∃ event ∈ debugger.observedEvents cpu, event.isHit = true := by
  obtain ⟨event, met, hit⟩ := standing.hit cpu.registers.programCounter cpu.registers cpu.counters
  have arrived : (debugger.traced cpu).arrivalEvent? cpu = some event := by
    rw [arrivalEvent?, (traced_records _ _).1, present, Option.bind_some, met]
  refine ⟨event, ?_, hit⟩
  rw [observedEvents, if_pos looks, lookEvents, arrived]
  simp

end Debugger

end Nmos6502
