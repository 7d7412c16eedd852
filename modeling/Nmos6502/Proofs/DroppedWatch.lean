import Nmos6502.Device.Peripheral
import Nmos6502.Proofs.MappedWrite
import Nmos6502.Proofs.WatchRecord

/-!
Watchpoints at addresses where writes are dropped. A write there leaves nothing new to be
seen, and yet it is reported as a change if no device answers and a read was reported
before, because what the read found on the bus is then remembered against no byte at all.
-/

namespace Nmos6502

namespace Access

def ReadIn (address : UInt16) (log : List Access) : Prop :=
  ∃ access ∈ log, access.kind = .read ∧ access.address = address

theorem readIn_append (address : UInt16) (first rest : List Access) :
    ReadIn address (first ++ rest) ↔ ReadIn address first ∨ ReadIn address rest := by
  simp only [ReadIn, List.mem_append, or_and_right, exists_or]

def FollowsRead (address : UInt16) (past log : List Access) (write : Access) : Prop :=
  write.kind = .write ∧ write.address = address ∧
    ∃ earlier later, log = earlier ++ write :: later ∧ ReadIn address (past ++ earlier)

theorem followsRead_cons (address : UInt16) (past : List Access) (access : Access)
    (rest : List Access) (write : Access) :
    FollowsRead address past (access :: rest) write ↔
      (access = write ∧ write.kind = .write ∧ write.address = address ∧ ReadIn address past) ∨
        FollowsRead address (past ++ [access]) rest write := by
  constructor
  · rintro ⟨kind, here, _ | ⟨first, earlier⟩, later, split, before⟩
    · obtain ⟨rfl, rfl⟩ : access = write ∧ rest = later := by simpa using split
      exact .inl ⟨rfl, kind, here, by simpa using before⟩
    · obtain ⟨rfl, rfl⟩ : access = first ∧ rest = earlier ++ write :: later := by
        simpa using split
      exact .inr ⟨kind, here, earlier, later, rfl, by simpa using before⟩
  · rintro (⟨rfl, kind, here, before⟩ | ⟨kind, here, earlier, later, rfl, before⟩)
    · exact ⟨kind, here, [], rest, rfl, by simpa using before⟩
    · exact ⟨kind, here, access :: earlier, later, rfl, by simpa using before⟩

end Access

namespace Watchpoint

open Access (ReadIn FollowsRead)

variable {β : Type} [Bus β]

/-- What a watchpoint can have seen last where writes are dropped: what is held there, or,
when nothing is, what a read found on the bus. -/
structure Remembers (filter : AccessFilter) (held : Option UInt8) (address : UInt16)
    (past : List Access) (watchpoint : Watchpoint) : Prop where
  sameFilter : watchpoint.filter = filter
  lastValue : watchpoint.lastValue = held ∨
    filter = .both ∧ held = none ∧ ReadIn address past

theorem Remembers.later {filter : AccessFilter} {held : Option UInt8} {address : UInt16}
    {past : List Access} {watchpoint : Watchpoint}
    (remembers : Remembers filter held address past watchpoint) (log : List Access) :
    Remembers filter held address (past ++ log) watchpoint := by
  refine ⟨remembers.sameFilter, remembers.lastValue.imp_right ?_⟩
  rintro ⟨both, nothing, before⟩
  exact ⟨both, nothing, (Access.readIn_append address past log).mpr (.inl before)⟩

theorem Remembers.see {filter : AccessFilter} {held : Option UInt8} {past : List Access}
    {watchpoint : Watchpoint} {access : Access}
    (remembers : Remembers filter held access.address past watchpoint)
    (changes : filter = .write ∨ filter = .both) {cpu : Cpu β}
    (peek : Bus.peek cpu.memory access.address = held)
    (found : access.kind = .read → ∀ byte, held = some byte → access.value = byte) :
    Remembers filter held access.address (past ++ [access]) (watchpoint.see cpu access).1 ∧
      ∀ hit, (watchpoint.see cpu access).2 = some hit → hit.access = access ∧
        (access.kind = .write → filter = .both ∧ held = none ∧ ReadIn access.address past) := by
  have later := remembers.later [access]
  obtain ⟨kept, ⟨same, silent⟩ | ⟨admitted, seen, reported⟩⟩ := watchpoint.see_cases cpu access
  · refine ⟨⟨kept.trans later.sameFilter, same ▸ later.lastValue⟩, fun hit shown => ?_⟩
    simp [silent] at shown
  · rw [remembers.sameFilter] at admitted
    have shown : ∀ hit, (watchpoint.see cpu access).2 = some hit → hit.access = access := by
      intro hit shown
      rw [← Option.some.inj (reported.symm.trans shown)]
    -- A read may bring in what is not held; a write leaves what is held to be seen.
    rcases kind : access.kind with _ | _
    · have both : filter = .both := by
        rcases changes with rfl | both
        · simp [kind, AccessFilter.admits] at admitted
        · exact both
      refine ⟨⟨kept.trans later.sameFilter, ?_⟩, fun hit found => ⟨shown hit found, nofun⟩⟩
      cases held with
      | none => exact .inr ⟨both, rfl, access, by simp, kind, rfl⟩
      | some byte =>
          refine .inl (seen.trans ?_)
          simp [Debugger.valueSeen, kind, found kind byte rfl]
    · have left : Debugger.valueSeen cpu access = held := by simp [Debugger.valueSeen, kind, peek]
      rw [left] at admitted seen
      rcases remembers.lastValue with known | ⟨both, nothing, before⟩
      · rw [known, kind] at admitted
        rcases changes with rfl | rfl <;> simp [AccessFilter.admits] at admitted
      · rw [nothing, Option.none_or] at seen
        exact ⟨⟨kept.trans later.sameFilter, seen ▸ later.lastValue⟩,
          fun hit found => ⟨shown hit found, fun _ => ⟨both, nothing, before⟩⟩⟩

theorem Remembers.seeAll {filter : AccessFilter} {held : Option UInt8} {address : UInt16}
    {past log : List Access} {watchpoint : Watchpoint}
    (remembers : Remembers filter held address past watchpoint)
    (changes : filter = .write ∨ filter = .both) {cpu : Cpu β}
    (peek : Bus.peek cpu.memory address = held)
    (found : ∀ access ∈ log, access.address = address → access.kind = .read →
      ∀ byte, held = some byte → access.value = byte) :
    Remembers filter held address (past ++ log) (watchpoint.seeAll cpu address log).1 ∧
      ∀ hit ∈ (watchpoint.seeAll cpu address log).2, hit.access.kind = .write →
        filter = .both ∧ held = none ∧ FollowsRead address past log hit.access := by
  induction log generalizing past watchpoint with
  | nil => exact ⟨remembers.later [], by simp [Watchpoint.seeAll]⟩
  | cons access rest ih =>
      rw [List.forall_mem_cons] at found
      have onward : past ++ access :: rest = past ++ [access] ++ rest := by simp
      rw [onward]
      -- Accesses to other addresses leave the watchpoint as it is, but count as past.
      by_cases here : access.address = address
      · rw [seeAll_here _ _ _ here]
        subst here
        obtain ⟨stillRemembers, first⟩ := remembers.see changes peek (found.1 rfl)
        obtain ⟨inTheEnd, others⟩ := ih stillRemembers found.2
        refine ⟨inTheEnd, fun hit member write => ?_⟩
        rcases List.mem_append.mp member with now | later
        · obtain ⟨same, reported⟩ := first hit (Option.mem_toList.mp now)
          rw [same] at write ⊢
          obtain ⟨both, nothing, before⟩ := reported write
          exact ⟨both, nothing, (Access.followsRead_cons ..).mpr (.inl ⟨rfl, write, rfl, before⟩)⟩
        · obtain ⟨both, nothing, follows⟩ := others hit later write
          exact ⟨both, nothing, (Access.followsRead_cons ..).mpr (.inr follows)⟩
      · rw [seeAll_elsewhere _ _ _ here]
        obtain ⟨inTheEnd, others⟩ := ih (remembers.later [access]) found.2
        refine ⟨inTheEnd, fun hit member write => ?_⟩
        obtain ⟨both, nothing, follows⟩ := others hit member write
        exact ⟨both, nothing, (Access.followsRead_cons ..).mpr (.inr follows)⟩

structure Attentive (address : UInt16) (past : List Access) (watchpoint : Watchpoint) : Prop
    extends Watching .both watchpoint where
  lastValue : ReadIn address past → watchpoint.lastValue.isSome = true

theorem Attentive.elsewhere {address : UInt16} {past : List Access} {watchpoint : Watchpoint}
    (attentive : Attentive address past watchpoint) (access : Access)
    (elsewhere : ¬(access.kind = .read ∧ access.address = address)) :
    Attentive address (past ++ [access]) watchpoint := by
  refine ⟨attentive.toWatching, fun before => attentive.lastValue ?_⟩
  rcases (Access.readIn_append address past [access]).mp before with earlier | now
  · exact earlier
  · simp [ReadIn, elsewhere] at now

theorem Attentive.see {past : List Access} {watchpoint : Watchpoint} {access : Access}
    (attentive : Attentive access.address past watchpoint) {cpu : Cpu β}
    (peek : Bus.peek cpu.memory access.address = none) :
    Attentive access.address (past ++ [access]) (watchpoint.see cpu access).1 ∧
      (access.kind = .write → ReadIn access.address past →
        ∃ hit, (watchpoint.see cpu access).2 = some hit ∧ hit.access = access) := by
  have watching := see_watching attentive.toWatching cpu access
  rcases kind : access.kind with _ | _
  · have admitted : AccessFilter.both.admits access.kind
        (Debugger.valueSeen cpu access != watchpoint.lastValue) = true := by
      simp [kind, AccessFilter.admits]
    refine ⟨⟨watching, fun _ => ?_⟩, nofun⟩
    simp [see_admitted attentive.toWatching admitted, Debugger.valueSeen, kind]
  · have nothing : Debugger.valueSeen cpu access = none := by
      simp [Debugger.valueSeen, kind, peek]
    have later := attentive.elsewhere access (by simp [kind])
    -- Nothing is left to be seen, which differs from any value that is remembered.
    rcases last : watchpoint.lastValue with _ | byte
    · have ignored : AccessFilter.both.admits access.kind
          (Debugger.valueSeen cpu access != watchpoint.lastValue) = false := by
        simp [nothing, last, kind, AccessFilter.admits]
      rw [see_ignored attentive.toWatching ignored]
      refine ⟨later, fun _ before => ?_⟩
      have remembered := attentive.lastValue before
      simp [last] at remembered
    · have admitted : AccessFilter.both.admits access.kind
          (Debugger.valueSeen cpu access != watchpoint.lastValue) = true := by
        simp [nothing, last, kind, AccessFilter.admits]
      refine ⟨⟨watching, fun _ => ?_⟩, fun _ _ => ?_⟩
      · simp [see_admitted attentive.toWatching admitted, last]
      · exact ⟨_, congrArg Prod.snd (see_admitted attentive.toWatching admitted), rfl⟩

theorem Attentive.seeAll {address : UInt16} {past log : List Access} {watchpoint : Watchpoint}
    (attentive : Attentive address past watchpoint) {cpu : Cpu β}
    (peek : Bus.peek cpu.memory address = none) :
    Attentive address (past ++ log) (watchpoint.seeAll cpu address log).1 ∧
      ∀ write, FollowsRead address past log write →
        ∃ hit ∈ (watchpoint.seeAll cpu address log).2, hit.access = write := by
  induction log generalizing past watchpoint with
  | nil =>
      refine ⟨by simpa [Watchpoint.seeAll] using attentive, ?_⟩
      rintro write ⟨_, _, earlier, later, split, _⟩
      simp at split
  | cons access rest ih =>
      have onward : past ++ access :: rest = past ++ [access] ++ rest := by simp
      rw [onward]
      by_cases here : access.address = address
      · rw [seeAll_here _ _ _ here]
        subst here
        obtain ⟨stillAttentive, first⟩ := attentive.see peek
        obtain ⟨inTheEnd, others⟩ := ih stillAttentive
        refine ⟨inTheEnd, fun write follows => ?_⟩
        -- The write is the first access of the log, or it follows a read in what comes after.
        rcases (Access.followsRead_cons ..).mp follows with ⟨rfl, kind, _, before⟩ | later
        · obtain ⟨hit, reported, same⟩ := first kind before
          exact ⟨hit, List.mem_append_left _ (Option.mem_toList.mpr reported), same⟩
        · obtain ⟨hit, reported, same⟩ := others write later
          exact ⟨hit, List.mem_append_right _ reported, same⟩
      · rw [seeAll_elsewhere _ _ _ here]
        obtain ⟨inTheEnd, others⟩ := ih (attentive.elsewhere access (here ·.2))
        refine ⟨inTheEnd, fun write follows => ?_⟩
        rcases (Access.followsRead_cons ..).mp follows with ⟨rfl, _, same, _⟩ | later
        · exact absurd same here
        · exact others write later

end Watchpoint

namespace Session

open Access (FollowsRead)

variable {δ : Type} [Device δ]

/-- A dropped write that a watchpoint takes for a change: no device answers, and the bus was
read there before. -/
def TakenForChange (filter : AccessFilter) (memory : MappedMemory δ) (address : UInt16)
    (past log : List Access) (write : Access) : Prop :=
  filter = .both ∧ memory.find? address = none ∧ FollowsRead address past log write

structure Minds (filter : AccessFilter) (condition : Option Condition) (memory : MappedMemory δ)
    (address : UInt16) (past : List Access) (session : Session (MappedMemory δ)) : Prop where
  device : session.cpu.memory.find? address = memory.find? address
  record : ∃ watchpoint, session.debugger.watchpoints[address]? = some watchpoint ∧
    Watchpoint.Remembers filter (memory.peek address) address past watchpoint ∧
    (filter = .both → condition = none → memory.find? address = none →
      Watchpoint.Attentive address past watchpoint)

theorem watch_minds (session : Session (MappedMemory δ)) (address : UInt16)
    (filter : AccessFilter) (condition : Option Condition) (name : Option String) :
    Minds filter condition session.cpu.memory address []
      (session.watch address filter condition name) := by
  refine ⟨rfl, _, session.watch_record address filter condition name, ⟨rfl, .inl rfl⟩, ?_⟩
  rintro rfl rfl _
  exact ⟨Watchpoint.create_watching .., by simp [Access.ReadIn]⟩

theorem Aside.minds {filter : AccessFilter} {condition : Option Condition}
    {memory : MappedMemory δ} {address : UInt16} {past : List Access}
    {before after : Session (MappedMemory δ)} (aside : Aside address before after)
    (minds : Minds filter condition memory address past before) :
    Minds filter condition memory address past after := by
  obtain ⟨watchpoint, present, minded⟩ := minds.record
  exact ⟨aside.memory ▸ minds.device, watchpoint, aside.record.trans present, minded⟩

theorem step_minds {filter : AccessFilter} {condition : Option Condition}
    {memory : MappedMemory δ} {address : UInt16} {past : List Access}
    {session : Session (MappedMemory δ)}
    (minds : Minds filter condition memory address past session)
    (changes : filter = .write ∨ filter = .both) (dropped : memory.drops address = true)
    (recording : session.cpu.config.recordAccesses = true)
    (active : session.debugger.active = true) :
    Minds filter condition memory address (past ++ session.step.2.cpu.accesses)
        session.step.2 ∧
      ∃ hits, session.step.2.debugger.hitsAt address = session.debugger.hitsAt address ++ hits ∧
        (∀ hit ∈ hits, hit.access.kind = .write →
          TakenForChange filter memory address past session.step.2.cpu.accesses hit.access) ∧
        (condition = none → ∀ write,
          TakenForChange filter memory address past session.step.2.cpu.accesses write →
            ∃ hit ∈ hits, hit.access = write) := by
  obtain ⟨watchpoint, present, remembers, attentive⟩ := minds.record
  have stillDropped := (MappedMemory.drops_eq_of_find? minds.device).trans dropped
  have device := (MappedMemory.find?_step stillDropped).trans minds.device
  have peek : Bus.peek session.step.2.cpu.memory address = memory.peek address :=
    MappedMemory.peek_eq_of_find? device
  -- Where something is held the bus reads it, as no write changes it.
  have found : ∀ access ∈ session.cpu.stepAccesses, access.address = address →
      access.kind = .read → ∀ byte, memory.peek address = some byte → access.value = byte := by
    rintro access member rfl read byte held
    rw [← MappedMemory.peek_eq_of_find? minds.device] at held
    exact MappedMemory.read_dropped stillDropped session.cpu.stepAccesses_truthful member read held
  have shown := step_shown present recording active
  have accesses : session.step.2.cpu.accesses = session.cpu.stepAccesses :=
    Cpu.step_accesses_recording recording
  rw [accesses]
  obtain ⟨remembered, reported⟩ := remembers.seeAll changes peek found
  have unheld (unmapped : memory.find? address = none) :
      Bus.peek session.step.2.cpu.memory address = none := by
    simp [peek, MappedMemory.peek, unmapped]
  refine ⟨⟨device, _, shown.record, remembered, ?_⟩, _, shown.hits, ?_, ?_⟩
  · intro both unconditional unmapped
    exact ((attentive both unconditional unmapped).seeAll (unheld unmapped)).1
  · intro hit member write
    obtain ⟨both, nothing, follows⟩ := reported hit member write
    exact ⟨both, Option.map_eq_none_iff.mp nothing, follows⟩
  · rintro unconditional write ⟨both, unmapped, follows⟩
    exact ((attentive both unconditional unmapped).seeAll (unheld unmapped)).2 write follows

theorem Course.minds {filter : AccessFilter} {condition : Option Condition}
    {memory : MappedMemory δ} {address : UInt16} {start reached : Session (MappedMemory δ)}
    {log : List Access} (course : Course address start log reached)
    (minds : Minds filter condition memory address [] start)
    (changes : filter = .write ∨ filter = .both) (dropped : memory.drops address = true) :
    Minds filter condition memory address log reached := by
  induction course with
  | start => exact minds
  | aside _ aside ih => exact aside.minds ih
  | step _ recording active ih => exact (step_minds ih changes dropped recording active).1

/-- Along a course from the moment when a watchpoint for writes, or for reads and writes, is
set where writes are dropped, a step queues a hit of a write only for a write that is taken
for a change. Without a condition it queues one for each of them. -/
theorem dropped_write_reported_iff (session : Session (MappedMemory δ)) (address : UInt16)
    (filter : AccessFilter) (changes : filter = .write ∨ filter = .both)
    (condition : Option Condition) (name : Option String)
    (dropped : session.cpu.memory.drops address = true) {log : List Access}
    {reached : Session (MappedMemory δ)}
    (course : Course address (session.watch address filter condition name) log reached)
    (recording : reached.cpu.config.recordAccesses = true)
    (active : reached.debugger.active = true) :
    ∃ hits, reached.step.2.debugger.hitsAt address = reached.debugger.hitsAt address ++ hits ∧
      (∀ hit ∈ hits, hit.access.kind = .write →
        TakenForChange filter session.cpu.memory address log reached.step.2.cpu.accesses
          hit.access) ∧
      (condition = none → ∀ write,
        TakenForChange filter session.cpu.memory address log reached.step.2.cpu.accesses write →
          ∃ hit ∈ hits, hit.access = write) :=
  (step_minds (course.minds (session.watch_minds address filter condition name) changes dropped)
    changes dropped recording active).2

def gapProgram : Rom :=
  (Rom.filled 0x1000 0xEA).burnAll [(0, [0xAD, 0x00, 0x03, 0x8D, 0x00, 0x03])]

def gapMemory : MappedMemory Peripheral :=
  { mappings :=
      [⟨0x0000, 0x00200, .ram (Ram.zeroed 0x200)⟩, ⟨0xF000, 0x10000, .rom gapProgram⟩] }

def overGap : Session (MappedMemory Peripheral) :=
  let session : Session (MappedMemory Peripheral) :=
    { cpu := { memory := gapMemory, registers := { programCounter := 0xF000 } }
      debugger := ({} : Debugger).start }
  session.watch 0x0300 .both none none

theorem overGap_write_reported :
    ((({} : MappedMemory Peripheral).addDevice 0x0000 (.ram (Ram.zeroed 0x200))).bind
        (·.addDevice 0xF000 (.rom gapProgram))) = .ok gapMemory ∧
      gapMemory.drops 0x0300 = true ∧
      (overGap.after 2).debugger.hitsAt 0x0300 =
        [⟨⟨.read, 0x0300, 0xFF⟩, 0xFF, none⟩, ⟨⟨.write, 0x0300, 0xFF⟩, 0xFF, some 0xFF⟩] :=
  ⟨rfl, by decide +kernel, by decide +kernel⟩

theorem overGap_write_taken_for_change :
    ∃ hits, (overGap.after 2).debugger.hitsAt 0x0300 =
        (overGap.after 1).debugger.hitsAt 0x0300 ++ hits ∧
      ∃ hit ∈ hits, hit.access = ⟨.write, 0x0300, 0xFF⟩ := by
  have course : Course 0x0300 overGap ([] ++ overGap.step.2.cpu.accesses) overGap.step.2 :=
    .step .start (by decide) (by decide)
  have first : overGap.step.2.cpu.accesses = [⟨.read, 0x0300, 0xFF⟩] := by decide +kernel
  have second : overGap.step.2.step.2.cpu.accesses = [⟨.write, 0x0300, 0xFF⟩] := by
    decide +kernel
  obtain ⟨hits, queued, _, reported⟩ := dropped_write_reported_iff _ 0x0300 .both (.inr rfl) none
    none (by decide +kernel) course (by decide +kernel) (by decide +kernel)
  refine ⟨hits, queued, reported rfl _ ⟨rfl, by decide +kernel, rfl, rfl, [], [], second, ?_⟩⟩
  rw [first]
  exact ⟨_, List.mem_singleton.mpr rfl, rfl, rfl⟩

end Session

end Nmos6502
