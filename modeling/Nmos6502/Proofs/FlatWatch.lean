import Nmos6502.Proofs.FlatLog
import Nmos6502.Proofs.WatchRecord

/-!
Watchpoints on plain memory. What one has last seen is the byte that memory holds, step
after step, and so the writes that it reports are the changes of that byte and no others.
-/

namespace Nmos6502

namespace WatchHit

def isRead (hit : WatchHit) : Bool :=
  hit.access.isRead

def isWrite (hit : WatchHit) : Bool :=
  hit.access.isWrite

def ofChange (address : UInt16) (old new : UInt8) : List WatchHit :=
  if new = old then [] else [⟨⟨.write, address, new⟩, new, some old⟩]

/-- The hits that are due at an address after a step that made the accesses of a log. -/
structure Due (filter : AccessFilter) (address : UInt16) (old new : UInt8) (log : List Access)
    (hits : List WatchHit) : Prop where
  changes : filter = .write → hits = ofChange address old new
  both : filter = .both → hits.filter isWrite = ofChange address old new ∧
    (hits.filter isRead).map access =
      log.filter fun access => access.isRead && access.address == address
  accesses : filter = .access → hits.map access = log.filter fun access => access.address == address

theorem due_nil (filter : AccessFilter) (address : UInt16) (byte : UInt8) :
    Due filter address byte byte [] [] := by
  constructor <;> simp [ofChange]

theorem Due.elsewhere {filter : AccessFilter} {address : UInt16} {old new : UInt8}
    {access : Access} {rest : List Access} {hits : List WatchHit}
    (due : Due filter address old new rest hits) (elsewhere : access.address ≠ address) :
    Due filter address old new (access :: rest) hits := by
  constructor
  · exact due.changes
  · simpa [elsewhere] using due.both
  · simpa [elsewhere] using due.accesses

theorem Due.afterRead {filter : AccessFilter} {address : UInt16} {old new value : UInt8}
    {rest : List Access} {hits : List WatchHit} (due : Due filter address old new rest hits)
    (previous : Option UInt8) :
    Due filter address old new (⟨.read, address, value⟩ :: rest)
      ((if filter = .write then none
        else some ⟨⟨.read, address, value⟩, value, previous⟩).toList ++ hits) := by
  constructor
  · intro filterWrite
    simpa [filterWrite] using due.changes filterWrite
  · intro filterBoth
    obtain ⟨writes, reads⟩ := due.both filterBoth
    constructor
    · simpa [filterBoth, isWrite, Access.isWrite] using writes
    · simpa [filterBoth, isRead, Access.isRead] using reads
  · intro filterAccess
    simpa [filterAccess] using due.accesses filterAccess

theorem Due.afterWrite {filter : AccessFilter} {address : UInt16} {old value : UInt8}
    {rest : List Access} {hits : List WatchHit} (due : Due filter address value value rest hits) :
    Due filter address old value (⟨.write, address, value⟩ :: rest)
      ((if filter = .access ∨ value ≠ old then
          some ⟨⟨.write, address, value⟩, value, some old⟩
        else none).toList ++ hits) := by
  constructor
  · intro filterWrite
    have settled : hits = [] := by simpa [ofChange] using due.changes filterWrite
    by_cases same : value = old
    · simp [filterWrite, settled, ofChange, same]
    · simp [filterWrite, settled, ofChange, same]
  · intro filterBoth
    obtain ⟨writes, reads⟩ := due.both filterBoth
    have settled : hits.filter isWrite = [] := by simpa [ofChange] using writes
    by_cases same : value = old
    · simp [filterBoth, same, settled, reads, ofChange, Access.isRead]
    · simp [filterBoth, same, settled, reads, ofChange, isRead, isWrite, Access.isRead,
        Access.isWrite]
  · intro filterAccess
    simpa [filterAccess] using due.accesses filterAccess

end WatchHit

namespace Watchpoint

structure Current (filter : AccessFilter) (byte : UInt8) (watchpoint : Watchpoint) : Prop
    extends Watching filter watchpoint where
  lastValue : watchpoint.lastValue = some byte

theorem Current.see_read {filter : AccessFilter} {address : UInt16} {byte : UInt8}
    {watchpoint : Watchpoint} (current : Current filter byte watchpoint)
    (notRead : filter ≠ .read) (cpu : Cpu FlatMemory) :
    Current filter byte (watchpoint.see cpu ⟨.read, address, byte⟩).1 ∧
      (watchpoint.see cpu ⟨.read, address, byte⟩).2 =
        if filter = .write then none else some ⟨⟨.read, address, byte⟩, byte, some byte⟩ := by
  by_cases filterWrite : filter = .write
  · subst filterWrite
    rw [see_ignored current.toWatching rfl]
    exact ⟨current, rfl⟩
  · have admitted (changed : Bool) : filter.admits .read changed = true := by
      cases filter <;> simp_all [AccessFilter.admits]
    rw [see_admitted current.toWatching (admitted _), current.lastValue, if_neg filterWrite]
    exact ⟨⟨⟨current.enabled, current.unconditional, current.filter⟩, rfl⟩, rfl⟩

theorem Current.see_write {filter : AccessFilter} {address : UInt16} {old value : UInt8}
    {watchpoint : Watchpoint} (current : Current filter old watchpoint)
    (notRead : filter ≠ .read) {cpu : Cpu FlatMemory}
    (final : cpu.memory.read address = value) :
    Current filter value (watchpoint.see cpu ⟨.write, address, value⟩).1 ∧
      (watchpoint.see cpu ⟨.write, address, value⟩).2 =
        if filter = .access ∨ value ≠ old then
          some ⟨⟨.write, address, value⟩, value, some old⟩
        else none := by
  have seen : Debugger.valueSeen cpu ⟨.write, address, value⟩ = some value :=
    congrArg some final
  by_cases reported : filter = .access ∨ value ≠ old
  · have admitted : filter.admits .write (some value != some old) = true := by
      cases filter <;> simp_all [AccessFilter.admits]
    rw [← seen, ← current.lastValue] at admitted
    rw [see_admitted current.toWatching admitted, current.lastValue, seen, if_pos reported]
    exact ⟨⟨⟨current.enabled, current.unconditional, current.filter⟩, rfl⟩, rfl⟩
  · obtain ⟨notAccess, same⟩ : filter ≠ .access ∧ value = old := by simpa using reported
    have ignored : filter.admits .write (some value != some old) = false := by
      cases filter <;> simp_all [AccessFilter.admits]
    rw [← seen, ← current.lastValue] at ignored
    rw [see_ignored current.toWatching ignored, if_neg reported, same]
    exact ⟨current, rfl⟩

open Access (Truthful replay apply) in
theorem Current.seeAll {filter : AccessFilter} {address : UInt16} {watchpoint : Watchpoint}
    {memory : FlatMemory} {log : List Access} {cpu : Cpu FlatMemory}
    (current : Current filter (memory.read address) watchpoint) (notRead : filter ≠ .read)
    (truthful : Truthful memory log)
    (distinct : ((log.filter Access.isWrite).map Access.address).Nodup)
    (final : cpu.memory = replay memory log) :
    Current filter (cpu.memory.read address) (watchpoint.seeAll cpu address log).1 ∧
      WatchHit.Due filter address (memory.read address) (cpu.memory.read address) log
        (watchpoint.seeAll cpu address log).2 := by
  induction log generalizing memory watchpoint with
  | nil =>
      have same : cpu.memory = memory := final
      rw [same]
      exact ⟨current, WatchHit.due_nil filter address _⟩
  | cons access rest ih =>
      have laterDistinct : ((rest.filter Access.isWrite).map Access.address).Nodup :=
        distinct.sublist (((List.sublist_cons_self access rest).filter _).map _)
      by_cases here : access.address = address
      · rw [seeAll_here _ _ _ here]
        rcases access with ⟨_ | _, target, value⟩
        · obtain rfl : target = address := here
          obtain rfl : value = memory.read target := truthful.1 rfl
          obtain ⟨stillCurrent, hit⟩ := current.see_read notRead cpu
          obtain ⟨known, due⟩ := ih stillCurrent truthful.2 laterDistinct final
          rw [hit]
          exact ⟨known, due.afterRead _⟩
        · obtain rfl : target = address := here
          have overwritten : (apply memory ⟨.write, target, value⟩).read target = value := by
            rw [Access.read_apply, if_pos ⟨rfl, rfl⟩]
          -- No later write of the step reaches the address, so this one's byte is there at the end,
          -- where the watchpoint looks for it.
          have left : cpu.memory.read target = value := by
            rw [final]
            exact Access.read_replay_first_write memory target value distinct
          obtain ⟨nowCurrent, hit⟩ := current.see_write notRead left
          generalize watchpoint.see cpu ⟨.write, target, value⟩ = seen at nowCurrent hit ⊢
          rw [← overwritten] at nowCurrent
          obtain ⟨known, due⟩ := ih nowCurrent truthful.2 laterDistinct final
          rw [overwritten, left] at due
          rw [hit]
          refine ⟨known, ?_⟩
          rw [left]
          exact due.afterWrite
      · have untouched : (apply memory access).read address = memory.read address := by
          rw [Access.read_apply, if_neg (here ·.2)]
        rw [← untouched] at current
        obtain ⟨known, due⟩ := ih current truthful.2 laterDistinct final
        rw [seeAll_elsewhere _ _ _ here]
        rw [untouched] at due
        exact ⟨known, due.elsewhere here⟩

end Watchpoint

namespace Session

/-- The watchpoint at an address is switched on, and it has last seen what memory holds. -/
def Knows (filter : AccessFilter) (address : UInt16) (session : Session FlatMemory) : Prop :=
  ∃ watchpoint, session.debugger.watchpoints[address]? = some watchpoint ∧
    Watchpoint.Current filter (session.cpu.memory.read address) watchpoint

theorem watch_knows (session : Session FlatMemory) (address : UInt16) (filter : AccessFilter)
    (name : Option String) : Knows filter address (session.watch address filter none name) :=
  ⟨_, session.watch_record address filter none name,
    Watchpoint.create_watching address filter name _, rfl⟩

theorem Aside.knows {filter : AccessFilter} {address : UInt16} {before after : Session FlatMemory}
    (aside : Aside address before after) (knows : Knows filter address before) :
    Knows filter address after := by
  obtain ⟨watchpoint, present, current⟩ := knows
  rw [← aside.memory] at current
  exact ⟨watchpoint, aside.record.trans present, current⟩

theorem step_due {filter : AccessFilter} {address : UInt16} {session : Session FlatMemory}
    (knows : Knows filter address session) (notRead : filter ≠ .read)
    (recording : session.cpu.config.recordAccesses = true)
    (active : session.debugger.active = true) :
    Knows filter address session.step.2 ∧
      ∃ hits, session.step.2.debugger.hitsAt address = session.debugger.hitsAt address ++ hits ∧
        WatchHit.Due filter address (session.cpu.memory.read address)
          (session.step.2.cpu.memory.read address) session.step.2.cpu.accesses hits := by
  obtain ⟨watchpoint, present, current⟩ := knows
  have shown := step_shown present recording active
  have accesses : session.step.2.cpu.accesses = session.cpu.stepAccesses :=
    Cpu.step_accesses_recording recording
  obtain ⟨known, due⟩ := current.seeAll notRead session.cpu.stepAccesses_truthful
    session.cpu.stepAccesses_brief.distinct session.cpu.flat_step_memory
  rw [accesses]
  exact ⟨⟨_, shown.record, known⟩, _, shown.hits, due⟩

theorem Course.knows {filter : AccessFilter} {address : UInt16} {start reached : Session FlatMemory}
    {log : List Access} (course : Course address start log reached) (notRead : filter ≠ .read)
    (knows : Knows filter address start) : Knows filter address reached := by
  induction course with
  | start => exact knows
  | aside _ aside ih => exact aside.knows ih
  | step _ recording active ih => exact (step_due ih notRead recording active).1

/-- From the moment when a watchpoint for writes, or for reads as well, is set on plain memory,
it knows the byte at its address after every step, each step queues exactly the hits that
are due, and a run under the debugger is such steps and nothing else. -/
theorem watch_reports_changes (session : Session FlatMemory) (address : UInt16)
    (filter : AccessFilter) (notRead : filter ≠ .read) (name : Option String)
    {log : List Access} {reached : Session FlatMemory}
    (course : Course address (session.watch address filter none name) log reached) :
    Knows filter address reached ∧
      (reached.cpu.config.recordAccesses = true → reached.debugger.active = true →
        (∃ hits,
          reached.step.2.debugger.hitsAt address = reached.debugger.hitsAt address ++ hits ∧
            WatchHit.Due filter address (reached.cpu.memory.read address)
              (reached.step.2.cpu.memory.read address) reached.step.2.cpu.accesses hits) ∧
        (∀ count, ∃ later,
          Course address (session.watch address filter none name) (log ++ later)
            (reached.after count)) ∧
        ∀ budget, ∃ count, (reached.run budget).2 = reached.after count) := by
  have knows := course.knows notRead (session.watch_knows address filter name)
  refine ⟨knows, fun recording active => ⟨?_, ?_, ?_⟩⟩
  · exact (step_due knows notRead recording active).2
  · exact course.after recording active
  · intro budget
    exact ⟨_, reached.runFrom_after budget 0⟩

def incrementing : Session FlatMemory :=
  { cpu := { memory := FlatMemory.zeroed.load 0 [0xE6, 0x10] }
    debugger := ({} : Debugger).start }

theorem incrementing_reports_change :
    Knows .write 0x10 (incrementing.watch 0x10 .write none none).step.2 ∧
      (incrementing.watch 0x10 .write none none).step.2.debugger.hitsAt 0x10 =
        [⟨⟨.write, 0x10, 1⟩, 1, some 0⟩] :=
  ⟨(watch_reports_changes incrementing 0x10 .write (by decide) none
    (Course.step .start (by decide) (by decide))).1, by decide +kernel⟩

end Session

end Nmos6502
