import Nmos6502.Memory.Flat
import Nmos6502.Proofs.Dialogue
import Nmos6502.Proofs.ObservedRecord

/-!
All that a host can ask of a debugger, and what becomes of a record in between: from when it is
registered until it is replaced or removed its account agrees with what was evaluated and told.
Events come out of the queue once each and in the order in which they went in.
-/

namespace Nmos6502.Debugger

inductive Operation (β : Type)
  | start
  | stop
  | setBreakpoint (address : UInt16) (condition : Option Condition) (name : Option String)
  | setTemporaryBreakpoint (address : UInt16) (name : Option String)
  | removeBreakpoint (address : UInt16)
  | clearBreakpoints
  | enableBreakpoint (address : UInt16) (enabled : Bool)
  | setWatchpoint (address : UInt16) (filter : AccessFilter) (condition : Option Condition)
      (name : Option String) (seen : Option UInt8)
  | removeWatchpoint (address : UInt16)
  | clearWatchpoints
  | enableWatchpoint (address : UInt16) (enabled : Bool)
  | startTrace (capacity : Nat)
  | stopTrace
  | recycleTrace (storage : TraceStorage)
  | observe (cpu : Cpu β)
  | takeEvents

namespace Operation

variable {β : Type}

def fresh? (kind : TriggerKind) (address : UInt16) : Operation β → Option Account
  | setBreakpoint place _ _ =>
      if kind = .breakpoint ∧ place = address then some {} else none
  | setTemporaryBreakpoint place _ =>
      if kind = .breakpoint ∧ place = address then some { temporary := true } else none
  | setWatchpoint place _ _ _ seen =>
      if kind = .watchpoint ∧ place = address then some { lastValue := seen } else none
  | _ => none

def ends (kind : TriggerKind) (address : UInt16) : Operation β → Bool
  | stop => true
  | setBreakpoint place _ _ | setTemporaryBreakpoint place _ | removeBreakpoint place =>
      kind = .breakpoint ∧ place = address
  | setWatchpoint place _ _ _ _ | removeWatchpoint place =>
      kind = .watchpoint ∧ place = address
  | clearBreakpoints => kind = .breakpoint
  | clearWatchpoints => kind = .watchpoint
  | start | enableBreakpoint _ _ | enableWatchpoint _ _ | startTrace _ | stopTrace
  | recycleTrace _ | observe _ | takeEvents => false

def isObservation : Operation β → Bool
  | observe _ => true
  | _ => false

def counters : Operation β → Counters
  | observe cpu => cpu.counters
  | _ => {}

end Operation

variable {β : Type} [Bus β]

def carryOut (debugger : Debugger) : Operation β → List Event × Debugger
  | .start => ([], debugger.start)
  | .stop => ([], debugger.stop)
  | .setBreakpoint address condition name =>
      ([], (debugger.setBreakpoint address condition name).2)
  | .setTemporaryBreakpoint address name =>
      ([], (debugger.setTemporaryBreakpoint address name).2)
  | .removeBreakpoint address => ([], (debugger.removeBreakpoint address).2)
  | .clearBreakpoints => ([], debugger.clearBreakpoints)
  | .enableBreakpoint address enabled => ([], (debugger.enableBreakpoint address enabled).2)
  | .setWatchpoint address filter condition name seen =>
      ([], (debugger.setWatchpoint address filter condition name seen).2)
  | .removeWatchpoint address => ([], (debugger.removeWatchpoint address).2)
  | .clearWatchpoints => ([], debugger.clearWatchpoints)
  | .enableWatchpoint address enabled => ([], (debugger.enableWatchpoint address enabled).2)
  | .startTrace capacity => ([], debugger.startTrace capacity)
  | .stopTrace => ([], debugger.stopTrace.2)
  | .recycleTrace storage => ([], debugger.recycleTrace storage)
  | .observe cpu => ([], (debugger.observe cpu).1)
  | .takeEvents => debugger.takeEvents

def carryOutAll (debugger : Debugger) (operations : List (Operation β)) :
    List (List Event) × Debugger :=
  Dialogue.run carryOut debugger operations

def queued (debugger : Debugger) (operation : Operation β) : List Event :=
  queuedSince debugger (debugger.carryOut operation).2

/-! The queue. -/

theorem queued_observe (debugger : Debugger) (cpu : Cpu β) :
    debugger.queued (.observe cpu) = debugger.observedEvents cpu :=
  debugger.queuedSince_observe cpu

theorem carryOut_kept (debugger : Debugger) {operation : Operation β}
    (idle : operation.isObservation = false) (keeps : operation ≠ .takeEvents) :
    (debugger.carryOut operation).1 = [] ∧
      (debugger.carryOut operation).2.events = debugger.events := by
  cases operation with
  | observe cpu => nomatch idle
  | takeEvents => exact absurd rfl keeps
  | stop =>
      obtain ⟨spare, stopped⟩ := debugger.stop_eq
      exact ⟨rfl, by rw [carryOut, stopped]⟩
  | startTrace capacity =>
      obtain ⟨taken, spare, started⟩ := debugger.startTrace_eq capacity
      exact ⟨rfl, by rw [carryOut, started]⟩
  | recycleTrace storage =>
      obtain ⟨spare, kept⟩ := debugger.recycleTrace_eq storage
      exact ⟨rfl, by rw [carryOut, kept]⟩
  | _ => exact ⟨rfl, rfl⟩

theorem queued_idle (debugger : Debugger) {operation : Operation β}
    (idle : operation.isObservation = false) : debugger.queued operation = [] := by
  by_cases taken : operation = .takeEvents
  · subst taken
    exact List.drop_nil
  · exact Queues.queuedSince_eq (.nil (debugger.carryOut_kept idle taken).2)

theorem carryOut_queue (debugger : Debugger) (operation : Operation β) :
    (debugger.carryOut operation).1 ++ (debugger.carryOut operation).2.events.toList =
      debugger.events.toList ++ debugger.queued operation := by
  rcases observed : operation.isObservation with _ | _
  · rw [queued_idle _ observed, List.append_nil]
    by_cases taken : operation = .takeEvents
    · subst taken
      exact List.append_nil _
    · obtain ⟨nothing, kept⟩ := debugger.carryOut_kept observed taken
      rw [nothing, kept, List.nil_append]
  · cases operation with
    | observe cpu =>
        rw [queued_observe]
        exact debugger.observe_queues cpu
    | _ => nomatch observed

/-- What has been taken and what still waits is what waited at first and what has been queued. -/
theorem carryOutAll_queue (debugger : Debugger) (operations : List (Operation β)) :
    (debugger.carryOutAll operations).1.flatten ++
        (debugger.carryOutAll operations).2.events.toList =
      debugger.events.toList ++ Dialogue.gather carryOut queued debugger operations := by
  induction operations generalizing debugger with
  | nil => simp [carryOutAll, Dialogue.run, Dialogue.gather]
  | cons operation rest ih =>
      have later := ih (debugger.carryOut operation).2
      calc (debugger.carryOutAll (operation :: rest)).1.flatten ++
            (debugger.carryOutAll (operation :: rest)).2.events.toList
          = (debugger.carryOut operation).1 ++
              (((debugger.carryOut operation).2.carryOutAll rest).1.flatten ++
                ((debugger.carryOut operation).2.carryOutAll rest).2.events.toList) :=
            List.append_assoc ..
        _ = ((debugger.carryOut operation).1 ++
              (debugger.carryOut operation).2.events.toList) ++
                Dialogue.gather carryOut queued (debugger.carryOut operation).2 rest := by
            rw [later, List.append_assoc]
        _ = debugger.events.toList ++
              Dialogue.gather carryOut queued debugger (operation :: rest) := by
            rw [carryOut_queue, List.append_assoc]
            rfl

/-! One record. -/

def evaluationsOf (kind : TriggerKind) (address : UInt16) (debugger : Debugger) :
    Operation β → List Evaluation
  | .observe cpu => debugger.evaluations kind address cpu
  | _ => []

def noticesOf (kind : TriggerKind) (address : UInt16) (debugger : Debugger)
    (operation : Operation β) : List Notice :=
  (debugger.queued operation).filterMap (Event.notice? kind address operation.counters)

section

variable {kind : TriggerKind} {address place : UInt16} (debugger : Debugger)

theorem putBreakpoint_account (elsewhere : ¬(kind = .breakpoint ∧ place = address))
    (breakpoint : Breakpoint) :
    (debugger.putBreakpoint place breakpoint).account? kind address =
      debugger.account? kind address := by
  cases kind with
  | breakpoint =>
      have apart : place ≠ address := fun here => elsewhere ⟨rfl, here⟩
      simp [account?, putBreakpoint, Std.TreeMap.getElem?_insert, apart]
  | watchpoint => rfl

theorem dropBreakpoint_account (elsewhere : ¬(kind = .breakpoint ∧ place = address)) :
    (debugger.dropBreakpoint place).account? kind address =
      debugger.account? kind address := by
  cases kind with
  | breakpoint =>
      have apart : place ≠ address := fun here => elsewhere ⟨rfl, here⟩
      simp [account?, dropBreakpoint, Std.TreeMap.getElem?_erase, apart]
  | watchpoint => rfl

theorem enableBreakpoint_account (enabled : Bool) :
    (debugger.enableBreakpoint place enabled).2.account? kind address =
      debugger.account? kind address := by
  cases kind with
  | breakpoint =>
      simp only [account?, enableBreakpoint, Std.TreeMap.getElem?_modify]
      split
      · rename_i here
        rw [Std.compare_eq_iff_eq.mp here, Option.map_map]
        rfl
      · rfl
  | watchpoint => rfl

theorem enableWatchpoint_account (enabled : Bool) :
    (debugger.enableWatchpoint place enabled).2.account? kind address =
      debugger.account? kind address := by
  cases kind with
  | breakpoint => rfl
  | watchpoint =>
      simp only [account?, enableWatchpoint, Std.TreeMap.getElem?_modify]
      split
      · rename_i here
        rw [Std.compare_eq_iff_eq.mp here, Option.map_map]
        rfl
      · rfl

theorem putWatchpoint_account (elsewhere : ¬(kind = .watchpoint ∧ place = address))
    (watchpoint : Watchpoint) :
    (debugger.putWatchpoint place watchpoint).account? kind address =
      debugger.account? kind address := by
  cases kind with
  | breakpoint => rfl
  | watchpoint =>
      have apart : place ≠ address := fun here => elsewhere ⟨rfl, here⟩
      simp [account?, putWatchpoint, Std.TreeMap.getElem?_insert, apart]

theorem removeWatchpoint_account (elsewhere : ¬(kind = .watchpoint ∧ place = address)) :
    (debugger.removeWatchpoint place).2.account? kind address =
      debugger.account? kind address := by
  cases kind with
  | breakpoint => rfl
  | watchpoint =>
      have apart : place ≠ address := fun here => elsewhere ⟨rfl, here⟩
      simp [account?, removeWatchpoint, Std.TreeMap.getElem?_erase, apart]

end

theorem carryOut_registers {kind : TriggerKind} {address : UInt16} {operation : Operation β}
    {fresh : Account} (registers : operation.fresh? kind address = some fresh)
    (debugger : Debugger) :
    (debugger.carryOut operation).2.account? kind address = some fresh ∧
      fresh = { lastValue := fresh.lastValue, temporary := fresh.temporary } := by
  cases operation with
  | setBreakpoint place condition name =>
      obtain ⟨⟨rfl, rfl⟩, same⟩ := Option.ite_none_right_eq_some.mp registers
      cases same
      refine ⟨?_, rfl⟩
      simp only [carryOut, setBreakpoint, putBreakpoint, account?,
        Std.TreeMap.getElem?_insert_self]
      rfl
  | setTemporaryBreakpoint place name =>
      obtain ⟨⟨rfl, rfl⟩, same⟩ := Option.ite_none_right_eq_some.mp registers
      cases same
      refine ⟨?_, rfl⟩
      simp only [carryOut, setTemporaryBreakpoint, putBreakpoint, account?,
        Std.TreeMap.getElem?_insert_self]
      rfl
  | setWatchpoint place filter condition name seen =>
      obtain ⟨⟨rfl, rfl⟩, same⟩ := Option.ite_none_right_eq_some.mp registers
      cases same
      refine ⟨?_, rfl⟩
      simp only [carryOut, setWatchpoint, putWatchpoint, account?,
        Std.TreeMap.getElem?_insert_self]
      rfl
  | _ => cases registers

theorem carryOut_account {kind : TriggerKind} {address : UInt16} {operation : Operation β}
    (lasts : operation.ends kind address = false) (idle : operation.isObservation = false)
    (debugger : Debugger) :
    (debugger.carryOut operation).2.account? kind address = debugger.account? kind address := by
  cases operation with
  | observe cpu => nomatch idle
  | stop => nomatch lasts
  | setBreakpoint place condition name =>
      exact debugger.putBreakpoint_account (of_decide_eq_false lasts) _
  | setTemporaryBreakpoint place name =>
      exact debugger.putBreakpoint_account (of_decide_eq_false lasts) _
  | removeBreakpoint place =>
      exact debugger.dropBreakpoint_account (of_decide_eq_false lasts)
  | clearBreakpoints =>
      cases kind with
      | breakpoint => nomatch lasts
      | watchpoint => rfl
  | enableBreakpoint place enabled => exact debugger.enableBreakpoint_account enabled
  | setWatchpoint place filter condition name seen =>
      exact debugger.putWatchpoint_account (of_decide_eq_false lasts) _
  | removeWatchpoint place =>
      exact debugger.removeWatchpoint_account (of_decide_eq_false lasts)
  | clearWatchpoints =>
      cases kind with
      | breakpoint => rfl
      | watchpoint => nomatch lasts
  | enableWatchpoint place enabled => exact debugger.enableWatchpoint_account enabled
  | startTrace capacity =>
      obtain ⟨taken, spare, started⟩ := debugger.startTrace_eq capacity
      rw [carryOut, started]
      rfl
  | recycleTrace storage =>
      obtain ⟨spare, kept⟩ := debugger.recycleTrace_eq storage
      rw [carryOut, kept]
      rfl
  | start | stopTrace | takeEvents => rfl

theorem noticesOf_idle {kind : TriggerKind} {address : UInt16} {operation : Operation β}
    (idle : operation.isObservation = false) (debugger : Debugger) :
    debugger.noticesOf kind address operation = [] := by
  rw [noticesOf, queued_idle _ idle]
  rfl

theorem evaluationsOf_idle {kind : TriggerKind} {address : UInt16} {operation : Operation β}
    (idle : operation.isObservation = false) (debugger : Debugger) :
    debugger.evaluationsOf kind address operation = [] := by
  cases operation with
  | observe cpu => nomatch idle
  | _ => rfl

/-- A record that was registered with a fresh account, after some evaluations and notices. It is
gone if it was temporary and has been hit. -/
def Records (kind : TriggerKind) (address : UInt16) (fresh : Account)
    (evaluations : List Evaluation) (notices : List Notice) (debugger : Debugger) : Prop :=
  ∃ account, Accounted fresh evaluations notices account ∧
    (account.temporary = true → account.hits ≤ 1) ∧
    debugger.account? kind address = if account.spent then none else some account

theorem Records.observe {kind : TriggerKind} {address : UInt16} {fresh : Account}
    {evaluations : List Evaluation} {notices : List Notice} {debugger : Debugger}
    (records : debugger.Records kind address fresh evaluations notices) (cpu : Cpu β) :
    (debugger.observe cpu).1.Records kind address fresh
      (evaluations ++ debugger.evaluations kind address cpu)
      (notices ++ (debugger.observedEvents cpu).filterMap
        (Event.notice? kind address cpu.counters)) := by
  obtain ⟨account, accounted, once, present⟩ := records
  rcases spent : account.spent with _ | _
  · rw [spent] at present
    refine ⟨_, observe_notices cpu present ▸ accounted.weighAll _, ?_, ?_⟩
    · intro temporary
      rw [Account.weighAll_temporary] at temporary
      rw [Account.weighAll_hits, Account.hits_of_not_spent spent temporary, Nat.zero_add]
      exact Nat.le_trans List.countP_le_length (evaluations_temporary cpu present temporary)
    · rw [observe_account cpu present, Account.spent_weighAll spent]
  · rw [spent] at present
    obtain ⟨gone, unseen, untold⟩ := observe_absent cpu present
    rw [unseen, untold, List.append_nil, List.append_nil]
    exact ⟨account, accounted, once, by rw [spent]; exact gone⟩

theorem Records.carryOut {kind : TriggerKind} {address : UInt16} {fresh : Account}
    {evaluations : List Evaluation} {notices : List Notice} {debugger : Debugger}
    (records : debugger.Records kind address fresh evaluations notices)
    {operation : Operation β} (lasts : operation.ends kind address = false) :
    (debugger.carryOut operation).2.Records kind address fresh
      (evaluations ++ debugger.evaluationsOf kind address operation)
      (notices ++ debugger.noticesOf kind address operation) := by
  rcases idle : operation.isObservation with _ | _
  · rw [evaluationsOf_idle idle, noticesOf_idle idle, List.append_nil, List.append_nil]
    obtain ⟨account, accounted, once, present⟩ := records
    exact ⟨account, accounted, once, (carryOut_account lasts idle debugger).trans present⟩
  · cases operation with
    | observe cpu =>
        rw [noticesOf, queued_observe]
        exact records.observe cpu
    | _ => nomatch idle

theorem Records.carryOutAll {kind : TriggerKind} {address : UInt16} {fresh : Account}
    {evaluations : List Evaluation} {notices : List Notice} {debugger : Debugger}
    (records : debugger.Records kind address fresh evaluations notices)
    {life : List (Operation β)} (lasts : ∀ operation ∈ life, operation.ends kind address = false) :
    (debugger.carryOutAll life).2.Records kind address fresh
      (evaluations ++ Dialogue.gather Debugger.carryOut (evaluationsOf kind address) debugger life)
      (notices ++ Dialogue.gather Debugger.carryOut (noticesOf kind address) debugger life) := by
  induction life generalizing debugger evaluations notices with
  | nil => simpa [Debugger.carryOutAll, Dialogue.run, Dialogue.gather] using records
  | cons operation rest ih =>
      rw [List.forall_mem_cons] at lasts
      have later := ih (records.carryOut lasts.1) lasts.2
      rw [List.append_assoc, List.append_assoc] at later
      exact later

/-! An observation that makes no evaluation of a record, or none that holds. -/

section

variable {kind : TriggerKind} {address : UInt16} {debugger : Debugger} {cpu : Cpu β}

theorem observe_unevaluated (unseen : debugger.evaluations kind address cpu = []) :
    (debugger.observe cpu).1.account? kind address = debugger.account? kind address ∧
      debugger.noticesOf kind address (.observe cpu) = [] := by
  rw [noticesOf, queued_observe, Operation.counters]
  rcases present : debugger.account? kind address with _ | account
  · obtain ⟨gone, _, untold⟩ := observe_absent cpu present
    exact ⟨gone, untold⟩
  · rw [observe_account cpu present, observe_notices cpu present, unseen]
    simp [Account.weighAll, Account.notices]

theorem observe_missed {account : Account}
    (present : debugger.account? kind address = some account)
    (missed : ∀ evaluation ∈ debugger.evaluations kind address cpu, evaluation.holds = false) :
    ∃ after, (debugger.observe cpu).1.account? kind address = some after ∧
      after.hits = account.hits ∧ after.lastHit = account.lastHit ∧
      after.lastValue = account.lastValue ∧
      (debugger.noticesOf kind address (.observe cpu)).filterMap Notice.hitCount? = [] := by
  have none : (debugger.evaluations kind address cpu).any Evaluation.holds = false := by
    simpa using missed
  rw [noticesOf, queued_observe, Operation.counters, observe_account cpu present,
    observe_notices cpu present, none, Bool.and_false]
  exact ⟨_, rfl, account.weighAll_missed missed⟩

end

/-- Hits and failures are accounted for once. Every event is taken once, in the order of the
queue. From its registration until it is replaced or removed, the account of a record agrees with
its evaluations and with the events about it. An observation that finds the record switched off,
or the debugger inactive, leaves the account as it is, and one without an evaluation that holds
leaves the hits and what comes with them. -/
theorem records_accounted (debugger : Debugger) :
    (∀ operations : List (Operation β),
      (debugger.carryOutAll operations).1.flatten ++
          (debugger.carryOutAll operations).2.events.toList =
        debugger.events.toList ++ Dialogue.gather carryOut queued debugger operations) ∧
    (∀ kind address fresh, ∀ registration : Operation β,
      registration.fresh? kind address = some fresh →
      ∀ life : List (Operation β), (∀ operation ∈ life, operation.ends kind address = false) →
        ((debugger.carryOut registration).2.carryOutAll life).2.Records kind address fresh
          (Dialogue.gather carryOut (evaluationsOf kind address)
            (debugger.carryOut registration).2 life)
          (Dialogue.gather carryOut (noticesOf kind address)
            (debugger.carryOut registration).2 life)) ∧
    (∀ kind address, ∀ cpu : Cpu β,
      debugger.active = false ∨ debugger.enabled? kind address = some false →
        (debugger.observe cpu).1.account? kind address = debugger.account? kind address ∧
          debugger.noticesOf kind address (.observe cpu) = []) ∧
    (∀ kind address account, ∀ cpu : Cpu β, debugger.account? kind address = some account →
      (∀ evaluation ∈ debugger.evaluations kind address cpu, evaluation.holds = false) →
        ∃ after, (debugger.observe cpu).1.account? kind address = some after ∧
          after.hits = account.hits ∧ after.lastHit = account.lastHit ∧
          after.lastValue = account.lastValue ∧
          (debugger.noticesOf kind address (.observe cpu)).filterMap Notice.hitCount? = []) := by
  refine ⟨debugger.carryOutAll_queue, ?_, ?_,
    fun kind address account cpu present missed => observe_missed present missed⟩
  · intro kind address fresh registration registers life lasts
    obtain ⟨present, unused⟩ := carryOut_registers registers debugger
    have registered : (debugger.carryOut registration).2.Records kind address fresh [] [] := by
      refine ⟨fresh, .nil unused, ?_, ?_⟩
      · rw [unused]
        exact fun _ => Nat.zero_le _
      · rw [present, unused]
        simp [Account.spent]
    exact registered.carryOutAll lasts
  · rintro kind address cpu (inactive | disabled)
    · exact observe_unevaluated (evaluations_inactive cpu inactive)
    · exact observe_unevaluated (evaluations_disabled cpu disabled)

def faltering : Operation FlatMemory :=
  .setBreakpoint 0
    (some (.any [.compare .hitCount .less 1, .compare .lastValue .equal 0])) none

def arriving : Cpu FlatMemory :=
  { memory := FlatMemory.zeroed, lastStep := .interrupt .nmi, counters := ⟨7, 0⟩ }

def falteringLife : List (Operation FlatMemory) :=
  [.start, .observe arriving, .observe arriving, .takeEvents, .observe arriving]

def falteringOnce : Debugger :=
  ((carryOut {} faltering).2.carryOutAll [.start, .observe arriving]).2

theorem faltering_accounted :
    ((carryOut {} faltering).2.carryOutAll falteringLife).1.flatten =
        [.breakpointHit 0 "bp_$0000" 1 false,
          .conditionFailed .breakpoint 0 "bp_$0000" (.unavailable .lastValue)] ∧
      ((carryOut {} faltering).2.carryOutAll falteringLife).2.Records .breakpoint 0 {}
        (Dialogue.gather carryOut (evaluationsOf .breakpoint 0) (carryOut {} faltering).2
          falteringLife)
        (Dialogue.gather carryOut (noticesOf .breakpoint 0) (carryOut {} faltering).2
          falteringLife) ∧
      ((carryOut {} faltering).2.observe arriving).1.account? .breakpoint 0 = some {} ∧
      ∃ after, (falteringOnce.observe arriving).1.account? .breakpoint 0 = some after ∧
        after.hits = 1 ∧ after.lastHit = some ⟨7, 0⟩ := by
  have inactive := (records_accounted (carryOut {} faltering).2).2.2.1 .breakpoint 0 arriving
    (.inl rfl)
  have once : falteringOnce.account? .breakpoint 0 =
      some { hits := 1, lastHit := some ⟨7, 0⟩ } := by
    decide +kernel
  obtain ⟨after, found, hits, lastHit, _⟩ := (records_accounted falteringOnce).2.2.2 .breakpoint 0
    _ arriving once (by decide +kernel)
  exact ⟨by decide +kernel,
    (@records_accounted FlatMemory _ {}).2.1 .breakpoint 0 {} faltering rfl falteringLife
      (by decide),
    inactive.1.trans (by decide +kernel), after, found, hits, lastHit⟩

end Nmos6502.Debugger
