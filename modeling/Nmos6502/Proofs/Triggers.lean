import Nmos6502.Debugger.Records

/-!
All that can become of a breakpoint at an arrival and of a watchpoint at an access: it is not
evaluated, or its condition holds, does not hold, or fails.
-/

namespace Nmos6502

/-- A decision on a record, with when it was made and what there was to be seen. -/
structure Evaluation where
  counters : Counters
  seen : Option UInt8
  result : Except ConditionError Bool

theorem Trigger.fail_of_failed {trigger : Trigger} (failed : trigger.failed = true) :
    trigger.fail = trigger := by
  rw [fail, ← failed]

namespace Breakpoint

def evaluations (breakpoint : Breakpoint) (registers : Registers) (counters : Counters) :
    List Evaluation :=
  if breakpoint.enabled then [⟨counters, none, breakpoint.decide registers none⟩] else []

theorem meet_cases (breakpoint : Breakpoint) (address : UInt16) (registers : Registers)
    (counters : Counters) :
    (breakpoint.evaluations registers counters = [] ∧
      breakpoint.meet address registers counters = (some breakpoint, none)) ∨
    (breakpoint.evaluations registers counters = [⟨counters, none, .ok true⟩] ∧
      breakpoint.meet address registers counters =
        (if breakpoint.temporary then none
          else some { breakpoint with toTrigger := breakpoint.countHit counters },
        some (.breakpointHit address breakpoint.name (breakpoint.hits + 1)
          breakpoint.temporary))) ∨
    (breakpoint.evaluations registers counters = [⟨counters, none, .ok false⟩] ∧
      breakpoint.meet address registers counters = (some breakpoint, none)) ∨
    (∃ error, breakpoint.evaluations registers counters = [⟨counters, none, .error error⟩] ∧
      breakpoint.meet address registers counters =
        (some { breakpoint with toTrigger := breakpoint.fail },
          if breakpoint.failed then none
          else some (.conditionFailed .breakpoint address breakpoint.name error))) := by
  rcases enabled : breakpoint.enabled with _ | _
  · simp [meet, evaluations, enabled]
  · rcases decided : breakpoint.decide registers none with error | _ | _
    · rcases failed : breakpoint.failed with _ | _
      · simp [meet, evaluations, enabled, decided, failed]
      · simp [meet, evaluations, enabled, decided, failed, Trigger.fail_of_failed failed]
    · simp [meet, evaluations, enabled, decided]
    · simp [meet, evaluations, enabled, decided, Trigger.countHit]

theorem meet_events {breakpoint : Breakpoint} {address : UInt16} {registers : Registers}
    {counters : Counters} {Fine : Event → Prop}
    (hit : ∀ name hits removed, Fine (.breakpointHit address name hits removed))
    (failure : ∀ name error, Fine (.conditionFailed .breakpoint address name error)) :
    ∀ event ∈ (breakpoint.meet address registers counters).2, Fine event := by
  rcases breakpoint.meet_cases address registers counters with
    ⟨_, met⟩ | ⟨_, met⟩ | ⟨_, met⟩ | ⟨_, _, met⟩ <;> rw [met]
  · nofun
  · rintro event ⟨⟩
    exact hit _ _ _
  · nofun
  · cases breakpoint.failed
    · rintro event ⟨⟩
      exact failure _ _
    · nofun

theorem meet_keeps {breakpoint kept : Breakpoint} {address : UInt16} {registers : Registers}
    {counters : Counters}
    (met : (breakpoint.meet address registers counters).1 = some kept) :
    kept.enabled = breakpoint.enabled ∧ kept.condition = breakpoint.condition := by
  rcases breakpoint.meet_cases address registers counters with
    ⟨_, left⟩ | ⟨_, left⟩ | ⟨_, left⟩ | ⟨_, _, left⟩
  · rw [left] at met
    cases met
    exact ⟨rfl, rfl⟩
  · rw [left] at met
    obtain ⟨_, same⟩ := Option.ite_none_left_eq_some.mp met
    cases same
    exact ⟨rfl, rfl⟩
  · rw [left] at met
    cases met
    exact ⟨rfl, rfl⟩
  · rw [left] at met
    cases met
    exact ⟨rfl, rfl⟩

structure Standing (breakpoint : Breakpoint) : Prop where
  enabled : breakpoint.enabled = true
  unconditional : breakpoint.condition = none

theorem Standing.hit {breakpoint : Breakpoint} (standing : breakpoint.Standing)
    (address : UInt16) (registers : Registers) (counters : Counters) :
    ∃ event, (breakpoint.meet address registers counters).2 = some event ∧
      event.isHit = true := by
  simp [meet, Trigger.decide, standing.enabled, standing.unconditional, Event.isHit]

end Breakpoint

namespace Watchpoint

def evaluations (watchpoint : Watchpoint) (access : Access) (seen : Option UInt8)
    (registers : Registers) (counters : Counters) : List Evaluation :=
  if watchpoint.enabled && watchpoint.filter.admits access.kind (seen != watchpoint.lastValue) then
    [⟨counters, seen, watchpoint.decide registers watchpoint.lastValue⟩]
  else []

theorem notice_cases (watchpoint : Watchpoint) (access : Access) (seen : Option UInt8)
    (registers : Registers) (counters : Counters) :
    (watchpoint.evaluations access seen registers counters = [] ∧
      watchpoint.notice access seen registers counters = (watchpoint, none)) ∨
    (watchpoint.evaluations access seen registers counters = [⟨counters, seen, .ok true⟩] ∧
      watchpoint.notice access seen registers counters =
        ({ watchpoint with
            toTrigger := watchpoint.countHit counters
            lastValue := seen.or watchpoint.lastValue },
          some (.watchpointHit watchpoint.name access (seen.getD access.value)
            watchpoint.lastValue (watchpoint.hits + 1)))) ∨
    (watchpoint.evaluations access seen registers counters = [⟨counters, seen, .ok false⟩] ∧
      watchpoint.notice access seen registers counters = (watchpoint, none)) ∨
    (∃ error,
      watchpoint.evaluations access seen registers counters = [⟨counters, seen, .error error⟩] ∧
      watchpoint.notice access seen registers counters =
        ({ watchpoint with toTrigger := watchpoint.fail },
          if watchpoint.failed then none
          else some (.conditionFailed .watchpoint access.address watchpoint.name error))) := by
  rcases admitted : watchpoint.enabled && watchpoint.filter.admits access.kind
    (seen != watchpoint.lastValue) with _ | _
  · simp [notice, evaluations, admitted]
  · rcases decided : watchpoint.decide registers watchpoint.lastValue with error | _ | _
    · rcases failed : watchpoint.failed with _ | _
      · simp [notice, evaluations, admitted, decided, failed]
      · simp [notice, evaluations, admitted, decided, failed, Trigger.fail_of_failed failed]
    · simp [notice, evaluations, admitted, decided]
    · simp [notice, evaluations, admitted, decided, Trigger.countHit]

theorem notice_events {watchpoint : Watchpoint} {access : Access} {seen : Option UInt8}
    {registers : Registers} {counters : Counters} {Fine : Event → Prop}
    (hit : ∀ name value previous hits, Fine (.watchpointHit name access value previous hits))
    (failure : ∀ name error, Fine (.conditionFailed .watchpoint access.address name error)) :
    ∀ event ∈ (watchpoint.notice access seen registers counters).2, Fine event := by
  rcases watchpoint.notice_cases access seen registers counters with
    ⟨_, noticed⟩ | ⟨_, noticed⟩ | ⟨_, noticed⟩ | ⟨_, _, noticed⟩ <;> rw [noticed]
  · nofun
  · rintro event ⟨⟩
    exact hit _ _ _ _
  · nofun
  · cases watchpoint.failed
    · rintro event ⟨⟩
      exact failure _ _
    · nofun

end Watchpoint

end Nmos6502
