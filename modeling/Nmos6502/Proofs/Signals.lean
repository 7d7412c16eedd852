import Nmos6502.Proofs.Operations
import Nmos6502.Proofs.Undisturbed

/-!
The signals of a processor: whether it is halted and which interrupts are requested of it.
Neither accesses nor instructions touch them, apart from an interrupt entry, which
acknowledges what it serves, and an illegal opcode that halts.
-/

namespace Nmos6502

structure Signals where
  halted : Bool
  nmiRequested : Bool
  irqRequested : Bool
  deriving DecidableEq

namespace Signals

def acknowledge (signals : Signals) : Interrupt → Signals
  | .nmi => { signals with nmiRequested := false }
  | .irq => { signals with irqRequested := false }
  | .brk => signals

/-- The signals after an operation that takes no step. -/
def answer (signals : Signals) : Operation → Signals
  | .reset => ⟨false, false, false⟩
  | .requestIrq => { signals with irqRequested := true }
  | .withdrawIrq => { signals with irqRequested := false }
  | .requestNmi => { signals with nmiRequested := true }
  | _ => signals

theorem answer_running {signals : Signals} (running : signals.halted = false)
    (operation : Operation) : (signals.answer operation).halted = false := by
  cases operation <;> simp [answer, running]

end Signals

namespace Cpu

section

variable {β : Type}

def signals (cpu : Cpu β) : Signals :=
  ⟨cpu.halted, cpu.nmiRequested, cpu.irqRequested⟩

@[simp] theorem begin_signals (cpu : Cpu β) : cpu.begin.signals = cpu.signals := rfl

theorem acknowledge_signals (cpu : Cpu β) (source : Interrupt) :
    (cpu.acknowledge source).signals = cpu.signals.acknowledge source := by
  cases source <;> rfl

theorem Undisturbed.signals {before after : Cpu β} (undisturbed : Undisturbed before after) :
    after.signals = before.signals := by
  simp only [Cpu.signals, undisturbed.halted, undisturbed.nmiRequested, undisturbed.irqRequested]

variable [Bus β]

theorem serviceInterrupt_signals (cpu : Cpu β) (source : Interrupt) :
    (cpu.serviceInterrupt source).signals = cpu.signals.acknowledge source :=
  (cpu.enterInterrupt_undisturbed source).signals.trans (cpu.acknowledge_signals source)

theorem executeInstruction_signals (cpu : Cpu β) :
    cpu.executeInstruction.signals = cpu.signals :=
  ((cpu.jumpTo_undisturbed _).trans (perform_undisturbed _ _ _)).signals

theorem settle_signals (cpu : Cpu β) (cycles : Nat) :
    (cpu.settle cycles).2.signals = cpu.signals := by
  simp only [settle]
  split <;> rfl

theorem step_signals (cpu : Cpu β) :
    cpu.step.2.signals =
      if cpu.halted then cpu.signals
      else
        match cpu.dueInterrupt with
        | some source => cpu.signals.acknowledge source
        | none => { cpu.signals with halted := cpu.meetsIllegalOpcode } := by
  rcases cpu.step_cases with ⟨halted, stepped⟩ | ⟨source, running, due, stepped⟩ |
    ⟨running, due, illegal, stepped⟩ | ⟨running, due, legal, stepped⟩
  · rw [stepped, if_pos halted]
    rfl
  · rw [stepped, settle_signals, serviceInterrupt_signals, due]
    simp [running]
  · rw [stepped, due, illegal]
    simp [running, signals, begin]
  · rw [stepped, settle_signals, executeInstruction_signals, due, legal]
    simp [running, signals, begin]

theorem carryOut_signals (cpu : Cpu β) {operation : Operation}
    (still : operation.takesStep = false) :
    (cpu.carryOut operation).2.signals = cpu.signals.answer operation := by
  cases operation with
  | step => simp [Operation.takesStep] at still
  | execute budget =>
      rw [cpu.carryOut_execute_still still]
      rfl
  | read address => exact (cpu.read_undisturbed address).signals
  | write address value => exact (cpu.write_undisturbed address value).signals
  | push value => exact (cpu.pushByte_undisturbed value).signals
  | pull => exact cpu.pullByte_undisturbed.signals
  | pushWord value => exact (cpu.pushWord_undisturbed value).signals
  | pullWord => exact cpu.pullWord_undisturbed.signals
  | reset | requestIrq | withdrawIrq | requestNmi | setRegisters update | configure config
  | readBus address | writeBus address value | peekBus address | resetBus | takeFault
  | senseLine => rfl

end

end Cpu

end Nmos6502
