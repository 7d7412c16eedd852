import Nmos6502.Proofs.RecordAccount

/-!
The record of one kind at one address in an observation: which evaluations the observation makes
of it, what they leave in its account, and what the events that are queued tell of them.
-/

namespace Nmos6502

/-- What an event tells of the record of a kind at an address. -/
def Event.notice? (kind : TriggerKind) (address : UInt16) (counters : Counters) :
    Event → Option Notice
  | breakpointHit place _ hits _ =>
      if kind = .breakpoint ∧ place = address then some (.hit hits counters) else none
  | watchpointHit _ access _ _ hits =>
      if kind = .watchpoint ∧ access.address = address then some (.hit hits counters) else none
  | conditionFailed failed place _ error =>
      if kind = failed ∧ place = address then some (.failure error) else none
  | traceFull _ => none

namespace Breakpoint

def account (breakpoint : Breakpoint) : Account where
  hits := breakpoint.hits
  lastHit := breakpoint.lastHit
  failed := breakpoint.failed
  temporary := breakpoint.temporary

variable (breakpoint : Breakpoint) (address : UInt16) (registers : Registers)
  (counters : Counters)

theorem meet_account :
    (breakpoint.meet address registers counters).1.map account =
      if breakpoint.temporary &&
          (breakpoint.evaluations registers counters).any Evaluation.holds then none
      else some (breakpoint.account.weighAll (breakpoint.evaluations registers counters)) := by
  rcases breakpoint.meet_cases address registers counters with
    ⟨none, met⟩ | ⟨held, met⟩ | ⟨missed, met⟩ | ⟨error, failed, met⟩
  · simp [none, met, Account.weighAll]
  · rcases temporary : breakpoint.temporary with _ | _
    · simp [held, met, temporary, Account.weighAll, Account.weigh, account, Trigger.countHit]
    · simp [held, met, temporary, Evaluation.holds]
  · simp [missed, met, Evaluation.holds, Account.weighAll, Account.weigh]
  · simp [failed, met, Evaluation.holds, Account.weighAll, Account.weigh, account, Trigger.fail]

theorem meet_notices :
    ((breakpoint.meet address registers counters).2.bind
        (Event.notice? .breakpoint address counters)).toList =
      breakpoint.account.notices (breakpoint.evaluations registers counters) := by
  rcases breakpoint.meet_cases address registers counters with
    ⟨none, met⟩ | ⟨held, met⟩ | ⟨missed, met⟩ | ⟨error, failed, met⟩
  · simp [none, met, Account.notices]
  · simp [held, met, Account.notices, Account.notice?, Event.notice?, account]
  · simp [missed, met, Account.notices, Account.notice?]
  · rcases told : breakpoint.failed with _ | _ <;>
      simp [failed, met, told, Account.notices, Account.notice?, Event.notice?, account]

theorem meet_unrelated {kind : TriggerKind} {other : UInt16}
    (elsewhere : kind = .breakpoint → address ≠ other) :
    (breakpoint.meet address registers counters).2.bind (Event.notice? kind other counters) =
      none := by
  have apart : ¬(kind = .breakpoint ∧ address = other) := fun here => elsewhere here.1 here.2
  exact Option.bind_eq_none_iff.mpr
    (meet_events (fun _ _ _ => if_neg apart) fun _ _ => if_neg apart)

end Breakpoint

namespace Watchpoint

def account (watchpoint : Watchpoint) : Account where
  hits := watchpoint.hits
  lastHit := watchpoint.lastHit
  lastValue := watchpoint.lastValue
  failed := watchpoint.failed

section

variable (watchpoint : Watchpoint) (access : Access) (seen : Option UInt8)
  (registers : Registers) (counters : Counters)

theorem notice_account :
    (watchpoint.notice access seen registers counters).1.account =
      watchpoint.account.weighAll (watchpoint.evaluations access seen registers counters) := by
  rcases watchpoint.notice_cases access seen registers counters with
    ⟨none, met⟩ | ⟨held, met⟩ | ⟨missed, met⟩ | ⟨error, failed, met⟩
  · simp [none, met, Account.weighAll]
  · simp [held, met, Account.weighAll, Account.weigh, account, Trigger.countHit]
  · simp [missed, met, Account.weighAll, Account.weigh]
  · simp [failed, met, Account.weighAll, Account.weigh, account, Trigger.fail]

theorem notice_notices :
    ((watchpoint.notice access seen registers counters).2.bind
        (Event.notice? .watchpoint access.address counters)).toList =
      watchpoint.account.notices (watchpoint.evaluations access seen registers counters) := by
  rcases watchpoint.notice_cases access seen registers counters with
    ⟨none, met⟩ | ⟨held, met⟩ | ⟨missed, met⟩ | ⟨error, failed, met⟩
  · simp [none, met, Account.notices]
  · simp [held, met, Account.notices, Account.notice?, Event.notice?, account]
  · simp [missed, met, Account.notices, Account.notice?]
  · rcases told : watchpoint.failed with _ | _ <;>
      simp [failed, met, told, Account.notices, Account.notice?, Event.notice?, account]

theorem notice_unrelated {kind : TriggerKind} {other : UInt16}
    (elsewhere : kind = .watchpoint → access.address ≠ other) :
    (watchpoint.notice access seen registers counters).2.bind (Event.notice? kind other counters) =
      none := by
  have apart : ¬(kind = .watchpoint ∧ access.address = other) :=
    fun here => elsewhere here.1 here.2
  exact Option.bind_eq_none_iff.mpr
    (notice_events (fun _ _ _ _ => if_neg apart) fun _ _ => if_neg apart)

end

variable {β : Type} [Bus β]

def evaluationsIn (watchpoint : Watchpoint) (cpu : Cpu β) (address : UInt16) :
    List Access → List Evaluation
  | [] => []
  | access :: rest =>
      if access.address = address then
        watchpoint.evaluations access (Debugger.valueSeen cpu access) cpu.registers cpu.counters ++
          (watchpoint.see cpu access).1.evaluationsIn cpu address rest
      else watchpoint.evaluationsIn cpu address rest

theorem evaluationsIn_disabled {watchpoint : Watchpoint} (disabled : watchpoint.enabled = false)
    (cpu : Cpu β) (address : UInt16) (log : List Access) :
    watchpoint.evaluationsIn cpu address log = [] := by
  induction log with
  | nil => rfl
  | cons access rest ih =>
      have ignored : (watchpoint.see cpu access).1 = watchpoint := by simp [see, notice, disabled]
      have none (seen : Option UInt8) :
          watchpoint.evaluations access seen cpu.registers cpu.counters = [] := by
        simp [evaluations, disabled]
      rw [evaluationsIn, ignored, none, ih]
      split <;> rfl

theorem see_account (watchpoint : Watchpoint) (cpu : Cpu β) (access : Access) :
    (watchpoint.see cpu access).1.account =
      watchpoint.account.weighAll
        (watchpoint.evaluations access (Debugger.valueSeen cpu access) cpu.registers
          cpu.counters) :=
  watchpoint.notice_account access _ cpu.registers cpu.counters

end Watchpoint

namespace Account

theorem notices_append (account : Account) (earlier later : List Evaluation) :
    account.notices (earlier ++ later) =
      account.notices earlier ++ (account.weighAll earlier).notices later := by
  induction earlier generalizing account with
  | nil => rfl
  | cons evaluation rest ih =>
      rw [List.cons_append, notices, notices, ih, List.append_assoc]
      rfl

theorem weighAll_append (account : Account) (earlier later : List Evaluation) :
    account.weighAll (earlier ++ later) = (account.weighAll earlier).weighAll later :=
  List.foldl_append

end Account

namespace Watchpoint

variable {β : Type} [Bus β]

theorem seeAll_account (watchpoint : Watchpoint) (cpu : Cpu β) (address : UInt16)
    (log : List Access) :
    (watchpoint.seeAll cpu address log).1.account =
      watchpoint.account.weighAll (watchpoint.evaluationsIn cpu address log) := by
  induction log generalizing watchpoint with
  | nil => rfl
  | cons access rest ih =>
      by_cases here : access.address = address
      · rw [seeAll_here _ _ _ here, evaluationsIn, if_pos here, Account.weighAll_append,
          ← see_account, ih]
      · rw [seeAll_elsewhere _ _ _ here, evaluationsIn, if_neg here, ih]

end Watchpoint

namespace Debugger

section

variable {β : Type} {debugger : Debugger} (cpu : Cpu β) {address : UInt16}

theorem arrivalEvent?_unrelated {kind : TriggerKind}
    (elsewhere : kind = .breakpoint → cpu.registers.programCounter ≠ address) :
    (debugger.arrivalEvent? cpu).bind (Event.notice? kind address cpu.counters) = none := by
  rw [arrivalEvent?, Option.bind_assoc]
  exact Option.bind_eq_none_iff.mpr fun breakpoint _ =>
    breakpoint.meet_unrelated _ _ _ elsewhere

variable [Bus β]

theorem accessEvent?_unrelated {kind : TriggerKind} {access : Access}
    (elsewhere : kind = .watchpoint → access.address ≠ address) :
    (debugger.accessEvent? cpu access).bind (Event.notice? kind address cpu.counters) = none := by
  rw [accessEvent?, Option.bind_assoc]
  exact Option.bind_eq_none_iff.mpr fun watchpoint _ =>
    watchpoint.notice_unrelated access _ _ _ elsewhere

theorem accessEvents_unrelated (log : List Access) :
    (debugger.accessEvents cpu log).filterMap (Event.notice? .breakpoint address cpu.counters) =
      [] := by
  apply filterMap_accessEvents
  intro watchpoint access seen registers counters
  refine Option.bind_eq_none_iff.mpr (Watchpoint.notice_events ?_ ?_)
  · simp [Event.notice?]
  · simp [Event.notice?]

theorem accessEvents_notices {watchpoint : Watchpoint}
    (present : debugger.watchpoints[address]? = some watchpoint) (log : List Access) :
    (debugger.accessEvents cpu log).filterMap (Event.notice? .watchpoint address cpu.counters) =
      watchpoint.account.notices (watchpoint.evaluationsIn cpu address log) := by
  induction log generalizing debugger watchpoint with
  | nil => rfl
  | cons access rest ih =>
      rw [accessEvents, List.filterMap_append, filterMap_toList]
      by_cases here : access.address = address
      · subst here
        rw [Watchpoint.evaluationsIn, if_pos rfl, Account.notices_append, ← Watchpoint.see_account,
          ih (watchAccess_here cpu present).record, accessEvent?, present, Option.bind_some,
          watchpoint.notice_notices]
      · have kept := (debugger.watchAccess_elsewhere cpu here).record.trans present
        rw [Watchpoint.evaluationsIn, if_neg here, accessEvent?_unrelated cpu fun _ => here,
          ih kept]
        rfl

theorem watchAccess_absent {access : Access}
    (absent : debugger.watchpoints[access.address]? = none) :
    debugger.watchAccess cpu access = (debugger, false) := by
  simp only [watchAccess, absent]

theorem watchAccesses_absent (absent : debugger.watchpoints[address]? = none)
    (log : List Access) :
    (debugger.watchAccesses cpu log).1.watchpoints[address]? = none ∧
      (debugger.accessEvents cpu log).filterMap
        (Event.notice? .watchpoint address cpu.counters) = [] := by
  induction log generalizing debugger with
  | nil => exact ⟨absent, rfl⟩
  | cons access rest ih =>
      rw [accessEvents, List.filterMap_append, filterMap_toList]
      by_cases here : access.address = address
      · subst here
        have stays := ih absent
        rw [accessEvent?, absent, Option.bind_none]
        simp only [watchAccesses, watchAccess_absent cpu absent]
        exact stays
      · have stays := ih ((debugger.watchAccess_elsewhere cpu here).record.trans absent)
        rw [accessEvent?_unrelated cpu fun _ => here]
        exact stays

end

section

variable {β : Type}

def account? (kind : TriggerKind) (address : UInt16) (debugger : Debugger) : Option Account :=
  match kind with
  | .breakpoint => debugger.breakpoints[address]?.map Breakpoint.account
  | .watchpoint => debugger.watchpoints[address]?.map Watchpoint.account

def enabled? (kind : TriggerKind) (address : UInt16) (debugger : Debugger) : Option Bool :=
  match kind with
  | .breakpoint => debugger.breakpoints[address]?.map fun breakpoint => breakpoint.enabled
  | .watchpoint => debugger.watchpoints[address]?.map fun watchpoint => watchpoint.enabled

theorem traced_account? (kind : TriggerKind) (address : UInt16) (debugger : Debugger)
    (cpu : Cpu β) :
    (debugger.traced cpu).account? kind address = debugger.account? kind address := by
  obtain ⟨breakpoints, watchpoints⟩ := debugger.traced_records cpu
  simp only [account?, breakpoints, watchpoints]

variable [Bus β]

def evaluationsAround (kind : TriggerKind) (address : UInt16) (debugger : Debugger)
    (cpu : Cpu β) : List Evaluation :=
  match kind with
  | .breakpoint =>
      if cpu.registers.programCounter = address then
        match debugger.breakpoints[address]? with
        | some breakpoint => breakpoint.evaluations cpu.registers cpu.counters
        | none => []
      else []
  | .watchpoint =>
      match debugger.watchpoints[address]? with
      | some watchpoint => watchpoint.evaluationsIn cpu address cpu.accesses
      | none => []

def evaluations (kind : TriggerKind) (address : UInt16) (debugger : Debugger) (cpu : Cpu β) :
    List Evaluation :=
  if debugger.looksAt cpu then debugger.evaluationsAround kind address cpu else []

end

section

variable {β : Type} [Bus β] {debugger : Debugger} (cpu : Cpu β) {kind : TriggerKind}
  {address : UInt16} {account : Account}

theorem lookAround_breakpoints :
    (debugger.lookAround cpu).1.breakpoints[address]? =
      if cpu.registers.programCounter = address then
        debugger.breakpoints[address]?.bind fun breakpoint =>
          (breakpoint.meet address cpu.registers cpu.counters).1
      else debugger.breakpoints[address]? := by
  rw [lookAround, meetBreakpoint_breakpoints, watchAccesses_breakpoints]

theorem lookAround_account (present : debugger.account? kind address = some account) :
    (debugger.lookAround cpu).1.account? kind address =
      if account.temporary && (debugger.evaluationsAround kind address cpu).any Evaluation.holds
      then none
      else some (account.weighAll (debugger.evaluationsAround kind address cpu)) := by
  cases kind with
  | breakpoint =>
      obtain ⟨breakpoint, there, rfl⟩ := Option.map_eq_some_iff.mp present
      simp only [account?, lookAround_breakpoints, evaluationsAround, there]
      split
      · exact breakpoint.meet_account _ _ _
      · simp [Account.weighAll]
  | watchpoint =>
      obtain ⟨watchpoint, there, rfl⟩ := Option.map_eq_some_iff.mp present
      simp only [account?, (lookAround_shown cpu there).record, evaluationsAround, there,
        Option.map_some, Watchpoint.seeAll_account]
      rfl

theorem lookEvents_notices (present : debugger.account? kind address = some account) :
    (debugger.lookEvents cpu).filterMap (Event.notice? kind address cpu.counters) =
      account.notices (debugger.evaluationsAround kind address cpu) := by
  rw [lookEvents, List.filterMap_append, filterMap_toList]
  cases kind with
  | breakpoint =>
      obtain ⟨breakpoint, there, rfl⟩ := Option.map_eq_some_iff.mp present
      rw [accessEvents_unrelated, List.nil_append, evaluationsAround]
      split
      · rename_i here
        rw [arrivalEvent?, here, there, Option.bind_some, breakpoint.meet_notices]
      · rename_i elsewhere
        rw [arrivalEvent?_unrelated cpu fun _ => elsewhere]
        rfl
  | watchpoint =>
      obtain ⟨watchpoint, there, rfl⟩ := Option.map_eq_some_iff.mp present
      have silent : (debugger.arrivalEvent? cpu).bind
          (Event.notice? .watchpoint address cpu.counters) = none :=
        arrivalEvent?_unrelated cpu fun broken => absurd broken (by decide)
      rw [accessEvents_notices cpu there, silent, evaluationsAround, there]
      exact List.append_nil _

theorem evaluationsAround_absent (absent : debugger.account? kind address = none) :
    debugger.evaluationsAround kind address cpu = [] := by
  cases kind with
  | breakpoint =>
      simp only [evaluationsAround, Option.map_eq_none_iff.mp absent]
      split <;> rfl
  | watchpoint => simp only [evaluationsAround, Option.map_eq_none_iff.mp absent]

theorem lookAround_absent (absent : debugger.account? kind address = none) :
    (debugger.lookAround cpu).1.account? kind address = none ∧
      (debugger.lookEvents cpu).filterMap (Event.notice? kind address cpu.counters) = [] := by
  rw [lookEvents, List.filterMap_append, filterMap_toList]
  cases kind with
  | breakpoint =>
      have nowhere := Option.map_eq_none_iff.mp absent
      -- An event about an arrival names its breakpoint, and there is none at this address.
      have silent : (debugger.arrivalEvent? cpu).bind
          (Event.notice? .breakpoint address cpu.counters) = none := by
        by_cases here : cpu.registers.programCounter = address
        · rw [arrivalEvent?, here, nowhere]
          rfl
        · exact arrivalEvent?_unrelated cpu fun _ => here
      rw [accessEvents_unrelated, silent, account?, lookAround_breakpoints, nowhere]
      exact ⟨by split <;> rfl, rfl⟩
  | watchpoint =>
      obtain ⟨stays, quiet⟩ := watchAccesses_absent cpu (Option.map_eq_none_iff.mp absent)
        cpu.accesses
      have silent : (debugger.arrivalEvent? cpu).bind
          (Event.notice? .watchpoint address cpu.counters) = none :=
        arrivalEvent?_unrelated cpu fun broken => absurd broken (by decide)
      have kept := meetBreakpoint_kept address (debugger.watchAccesses cpu cpu.accesses).1 cpu
      rw [quiet, silent]
      exact ⟨Option.map_eq_none_iff.mpr (kept.record.trans stays), rfl⟩

theorem traced_evaluationsAround :
    (debugger.traced cpu).evaluationsAround kind address cpu =
      debugger.evaluationsAround kind address cpu := by
  obtain ⟨breakpoints, watchpoints⟩ := debugger.traced_records cpu
  simp only [evaluationsAround, breakpoints, watchpoints]

/-- What an observation leaves of an account. A temporary record goes with its hit. -/
theorem observe_account (present : debugger.account? kind address = some account) :
    (debugger.observe cpu).1.account? kind address =
      if account.temporary && (debugger.evaluations kind address cpu).any Evaluation.holds
      then none
      else some (account.weighAll (debugger.evaluations kind address cpu)) := by
  rw [observe_eq, evaluations]
  split
  · rw [lookAround_account cpu ((traced_account? _ _ _ cpu).trans present),
      traced_evaluationsAround]
  · simp [present, Account.weighAll]

theorem observe_notices (present : debugger.account? kind address = some account) :
    (debugger.observedEvents cpu).filterMap (Event.notice? kind address cpu.counters) =
      account.notices (debugger.evaluations kind address cpu) := by
  rw [observedEvents, evaluations]
  split
  · rw [List.filterMap_append, filterMap_tracedEvents _ _ _ fun _ => rfl, List.nil_append,
      lookEvents_notices cpu ((traced_account? _ _ _ cpu).trans present), traced_evaluationsAround]
  · rfl

theorem observe_absent (absent : debugger.account? kind address = none) :
    (debugger.observe cpu).1.account? kind address = none ∧
      debugger.evaluations kind address cpu = [] ∧
      (debugger.observedEvents cpu).filterMap (Event.notice? kind address cpu.counters) = [] := by
  rw [observe_eq, observedEvents, evaluations]
  split
  · obtain ⟨stays, quiet⟩ := lookAround_absent cpu ((traced_account? _ _ _ cpu).trans absent)
    rw [List.filterMap_append, filterMap_tracedEvents _ _ _ fun _ => rfl, List.nil_append]
    exact ⟨stays, evaluationsAround_absent cpu absent, quiet⟩
  · exact ⟨absent, rfl, rfl⟩

theorem evaluations_temporary (present : debugger.account? kind address = some account)
    (temporary : account.temporary = true) :
    (debugger.evaluations kind address cpu).length ≤ 1 := by
  cases kind with
  | breakpoint =>
      obtain ⟨breakpoint, there, rfl⟩ := Option.map_eq_some_iff.mp present
      simp only [evaluations, evaluationsAround, there, Breakpoint.evaluations]
      repeat' split
      all_goals simp
  | watchpoint =>
      obtain ⟨watchpoint, _, rfl⟩ := Option.map_eq_some_iff.mp present
      cases temporary

theorem evaluations_disabled (disabled : debugger.enabled? kind address = some false) :
    debugger.evaluations kind address cpu = [] := by
  have around : debugger.evaluationsAround kind address cpu = [] := by
    cases kind with
    | breakpoint =>
        obtain ⟨breakpoint, there, off⟩ := Option.map_eq_some_iff.mp disabled
        simp [evaluationsAround, there, Breakpoint.evaluations, off]
    | watchpoint =>
        obtain ⟨watchpoint, there, off⟩ := Option.map_eq_some_iff.mp disabled
        simp only [evaluationsAround, there]
        exact Watchpoint.evaluationsIn_disabled off cpu address cpu.accesses
  rw [evaluations, around]
  split <;> rfl

theorem evaluations_inactive (inactive : debugger.active = false) :
    debugger.evaluations kind address cpu = [] := by
  simp [evaluations, looksAt, inactive]

end

end Debugger

end Nmos6502
