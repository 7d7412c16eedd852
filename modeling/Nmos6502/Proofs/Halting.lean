import Nmos6502.Memory.Flat
import Nmos6502.Proofs.Accounting
import Nmos6502.Proofs.SessionOperations

/-!
A step that meets an illegal opcode has no effect but the halt, and nothing short of a reset
ends the halt: whatever is asked of the processor until then is answered in one way, and neither
the machine nor its debugger moves.
-/

namespace Nmos6502

namespace Cpu

variable {β : Type} [Bus β]

theorem step_eq_of_halted {cpu : Cpu β} (halted : cpu.halted = true) :
    cpu.step = (.ok 0, { cpu.begin with lastStep := .halted }) := by
  rw [step, if_pos halted]

theorem meetsIllegalOpcode_iff (cpu : Cpu β) :
    cpu.meetsIllegalOpcode = true ↔
      cpu.config.illegal = .halt ∧ (Opcode.ofByte cpu.opcodeByte).isIllegal = true := by
  rw [meetsIllegalOpcode, Bool.and_eq_true, beq_iff_eq, and_comm]

theorem step_eq_of_illegal {cpu : Cpu β} (running : cpu.halted = false)
    (free : cpu.dueInterrupt = none) (illegal : cpu.meetsIllegalOpcode = true) :
    cpu.step = (.error (.illegalOpcode cpu.opcodeByte cpu.registers.programCounter),
      { cpu.begin with halted := true, lastStep := .halted }) := by
  simp [step, running, free, illegal]

theorem illegal_of_step {cpu : Cpu β} {opcode : UInt8} {address : UInt16}
    (failed : cpu.step.1 = .error (.illegalOpcode opcode address)) :
    cpu.halted = false ∧ cpu.dueInterrupt = none ∧ cpu.meetsIllegalOpcode = true := by
  rcases cpu.step_cases with ⟨_, stepped⟩ | ⟨source, _, _, stepped⟩ |
    ⟨running, free, illegal, _⟩ | ⟨_, _, _, stepped⟩
  · simp [stepped] at failed
  · rw [stepped] at failed
    exact absurd failed (settle_ne_illegalOpcode _ _ opcode address)
  · exact ⟨running, free, illegal⟩
  · rw [stepped] at failed
    exact absurd failed (settle_ne_illegalOpcode _ _ opcode address)

theorem execute_of_halted {cpu : Cpu β} (halted : cpu.halted = true) (budget : Nat) :
    cpu.execute budget = (.ok 0, cpu) :=
  executeFrom_stop cpu (.inr halted)

end Cpu

theorem Debugger.observe_of_halted {β : Type} [Bus β] (debugger : Debugger) {cpu : Cpu β}
    (last : cpu.lastStep = .halted) : debugger.observe cpu = (debugger, {}) := by
  simp only [observe, last, ite_self]

namespace Session

/-- What a host can do to get a processor going, short of resetting it. -/
inductive Urge
  | step
  | execute (budget : Nat)
  | stepObserved
  | run (budget : Nat)
  | requestIrq
  | requestNmi
  | withdrawIrq
  | configure (config : CpuConfig)

namespace Urge

def operation : Urge → Operation
  | step => .processor .step
  | execute budget => .processor (.execute budget)
  | stepObserved => .step
  | run budget => .run budget
  | requestIrq => .processor .requestIrq
  | requestNmi => .processor .requestNmi
  | withdrawIrq => .processor .withdrawIrq
  | configure config => .processor (.configure config)

def refusal : Urge → Answer
  | step | execute _ => .processor (.consumed (.ok 0))
  | stepObserved => .stepped (.ok 0)
  | run _ => .ran (.ok ⟨.halted, 0⟩)
  | requestIrq | requestNmi | withdrawIrq | configure _ => .processor .done

end Urge

/-- The processor is halted and stands where it stood, and its debugger has noticed nothing. -/
structure Rests {β : Type} (before after : Session β) : Prop where
  halted : after.cpu.halted = true
  registers : after.cpu.registers = before.cpu.registers
  memory : after.cpu.memory = before.cpu.memory
  counters : after.cpu.counters = before.cpu.counters
  stackWraps : after.cpu.stackWraps = before.cpu.stackWraps
  lastStackWrap : after.cpu.lastStackWrap = before.cpu.lastStackWrap
  lastInstruction : after.cpu.lastInstruction = before.cpu.lastInstruction
  debugger : after.debugger = before.debugger

theorem Rests.refl {β : Type} {session : Session β} (halted : session.cpu.halted = true) :
    Rests session session :=
  ⟨halted, rfl, rfl, rfl, rfl, rfl, rfl, rfl⟩

theorem Rests.trans {β : Type} {before middle after : Session β} (start : Rests before middle)
    (finish : Rests middle after) : Rests before after where
  halted := finish.halted
  registers := finish.registers.trans start.registers
  memory := finish.memory.trans start.memory
  counters := finish.counters.trans start.counters
  stackWraps := finish.stackWraps.trans start.stackWraps
  lastStackWrap := finish.lastStackWrap.trans start.lastStackWrap
  lastInstruction := finish.lastInstruction.trans start.lastInstruction
  debugger := finish.debugger.trans start.debugger

variable {β : Type} [Bus β]

theorem step_of_halted (session : Session β) (last : session.cpu.step.2.lastStep = .halted) :
    session.step = (session.cpu.step.1, { session with cpu := session.cpu.step.2 }) := by
  simp only [step, stepSighted, Debugger.observe_of_halted session.debugger last]

theorem carryOut_of_halted {session : Session β} (halted : session.cpu.halted = true)
    (urge : Urge) :
    (session.carryOut urge.operation).1 = urge.refusal ∧
      Rests session (session.carryOut urge.operation).2 := by
  have stepped := Cpu.step_eq_of_halted halted
  cases urge with
  | step =>
      simp only [Urge.operation, carryOut, Cpu.carryOut, stepped]
      exact ⟨rfl, halted, rfl, rfl, rfl, rfl, rfl, rfl, rfl⟩
  | execute budget =>
      simp only [Urge.operation, carryOut, Cpu.carryOut, Cpu.execute_of_halted halted]
      exact ⟨rfl, .refl halted⟩
  | stepObserved =>
      have observed := step_of_halted session (by rw [stepped])
      simp only [Urge.operation, carryOut, observed, stepped]
      exact ⟨rfl, halted, rfl, rfl, rfl, rfl, rfl, rfl, rfl⟩
  | run budget =>
      simp only [Urge.operation, carryOut, Session.run, runFrom_halted halted]
      exact ⟨rfl, .refl halted⟩
  | requestIrq | requestNmi | withdrawIrq | configure config =>
      exact ⟨rfl, halted, rfl, rfl, rfl, rfl, rfl, rfl, rfl⟩

theorem carryOutAll_of_halted {session : Session β} (halted : session.cpu.halted = true)
    (urges : List Urge) :
    (session.carryOutAll (urges.map Urge.operation)).1 = urges.map Urge.refusal ∧
      Rests session (session.carryOutAll (urges.map Urge.operation)).2 := by
  induction urges generalizing session with
  | nil => exact ⟨rfl, .refl halted⟩
  | cons urge rest ih =>
      obtain ⟨refused, rests⟩ := carryOut_of_halted halted urge
      obtain ⟨refusedLater, restsLater⟩ := ih rests.halted
      exact ⟨congrArg₂ List.cons refused refusedLater, rests.trans restsLater⟩

/-- A step fails with an illegal opcode exactly if it comes to an undocumented one that is to
halt the processor. It then does no more than halt it and note where it began, also under a
debugger, and a halted processor stays as it is however it is urged on. -/
theorem illegal_opcode_halts_for_good (session : Session β) :
    ((∃ opcode address, session.cpu.step.1 = .error (.illegalOpcode opcode address)) ↔
      session.cpu.halted = false ∧ session.cpu.dueInterrupt = none ∧
        session.cpu.config.illegal = .halt ∧
        (Opcode.ofByte (Bus.read session.cpu.memory
          session.cpu.registers.programCounter)).isIllegal = true) ∧
    (∀ opcode address, session.cpu.step.1 = .error (.illegalOpcode opcode address) →
      opcode = Bus.read session.cpu.memory session.cpu.registers.programCounter ∧
      address = session.cpu.registers.programCounter ∧
      session.cpu.step.2 =
        { session.cpu with
          halted := true
          lastStep := .halted
          accesses := []
          origin := ⟨session.cpu.registers.programCounter, session.cpu.counters.cycles⟩ } ∧
      session.step = (session.cpu.step.1, { session with cpu := session.cpu.step.2 })) ∧
    (session.cpu.halted = true → ∀ urges : List Urge,
      (session.carryOutAll (urges.map Urge.operation)).1 = urges.map Urge.refusal ∧
        Rests session (session.carryOutAll (urges.map Urge.operation)).2) := by
  refine ⟨⟨?_, ?_⟩, ?_, carryOutAll_of_halted⟩
  · rintro ⟨opcode, address, failed⟩
    obtain ⟨running, free, illegal⟩ := Cpu.illegal_of_step failed
    exact ⟨running, free, session.cpu.meetsIllegalOpcode_iff.mp illegal⟩
  · rintro ⟨running, free, illegal⟩
    have stepped := Cpu.step_eq_of_illegal running free
      (session.cpu.meetsIllegalOpcode_iff.mpr illegal)
    exact ⟨_, _, congrArg Prod.fst stepped⟩
  · intro opcode address failed
    obtain ⟨running, free, illegal⟩ := Cpu.illegal_of_step failed
    have stepped := Cpu.step_eq_of_illegal running free illegal
    have observed := step_of_halted session (by rw [stepped])
    rw [stepped, Except.error.injEq, StepError.illegalOpcode.injEq] at failed
    refine ⟨failed.1.symm, failed.2.symm, ?_, observed⟩
    rw [stepped]
    rfl

def atUndocumented : Session GuardedMemory where
  cpu :=
    { memory :=
        { memory := FlatMemory.zeroed.load 0 [0x02]
          limit := 0x8000
          fault := some (.readOnlyWrite 0x9000 0x55) } }
  debugger :=
    (({ active := true } : Debugger).setBreakpoint 0 none none).2.startTrace 4

theorem atUndocumented_halts_for_good :
    atUndocumented.cpu.step.1 = .error (.illegalOpcode 0x02 0x0000) ∧
      atUndocumented.step.2.cpu.memory.fault = some (.readOnlyWrite 0x9000 0x55) ∧
      atUndocumented.step.2.cpu.halted = true ∧
      (atUndocumented.step.2.carryOutAll
          ([.requestNmi, .stepObserved, .run 100, .execute 100].map Urge.operation)).1 =
        [.processor .done, .stepped (.ok 0), .ran (.ok ⟨.halted, 0⟩),
          .processor (.consumed (.ok 0))] ∧
      Rests atUndocumented.step.2 (atUndocumented.step.2.carryOutAll
        ([.requestNmi, .stepObserved, .run 100, .execute 100].map Urge.operation)).2 := by
  have failed : atUndocumented.cpu.step.1 = .error (.illegalOpcode 0x02 0x0000) := rfl
  obtain ⟨_, _, refused, observed⟩ :=
    (illegal_opcode_halts_for_good atUndocumented).2.1 0x02 0x0000 failed
  have after : atUndocumented.step.2.cpu = atUndocumented.cpu.step.2 := by rw [observed]
  have halted : atUndocumented.step.2.cpu.halted = true := by rw [after, refused]
  obtain ⟨answers, rests⟩ := (illegal_opcode_halts_for_good atUndocumented.step.2).2.2 halted
    [.requestNmi, .stepObserved, .run 100, .execute 100]
  exact ⟨failed, by rw [after, refused]; rfl, halted, answers, rests⟩

end Session

end Nmos6502
