import Nmos6502.Device.Peripheral
import Nmos6502.Memory.Mapped
import Nmos6502.Proofs.Signals
import Nmos6502.Proofs.StepLog

/-!
Interrupts in the course of a dialogue: which one a step enters, how long a request waits, and
what has to happen between one interrupt and the next.
-/

namespace Nmos6502

namespace Operation

def requests : Operation → Interrupt → Bool
  | requestNmi, .nmi | requestIrq, .irq => true
  | _, _ => false

end Operation

namespace Signals

end Signals

namespace Cpu

section

variable {β : Type} [Bus β]

def Services (cpu : Cpu β) (source : Interrupt) : Prop :=
  cpu.step.2.lastStep = .interrupt source

def Masked (cpu : Cpu β) : Prop :=
  cpu.registers.status.interruptDisable = true

instance (cpu : Cpu β) : Decidable cpu.Masked :=
  inferInstanceAs (Decidable (_ = true))

theorem services_iff (cpu : Cpu β) (source : Interrupt) :
    cpu.Services source ↔ cpu.halted = false ∧ cpu.dueInterrupt = some source := by
  rcases cpu.step_cases with ⟨halted, stepped⟩ | ⟨entered, running, due, stepped⟩ |
    ⟨running, due, illegal, stepped⟩ | ⟨running, due, legal, stepped⟩
  · simp [Services, stepped, halted]
  · simp [Services, stepped, running, due, settle_lastStep, serviceInterrupt]
  · simp [Services, stepped, due]
  · simp [Services, stepped, due, settle_lastStep, executeInstruction, retire]

theorem Services.step_eq {cpu : Cpu β} {source : Interrupt} (services : cpu.Services source) :
    cpu.step = (cpu.begin.serviceInterrupt source).settle Interrupt.cycles := by
  obtain ⟨running, due⟩ := (cpu.services_iff source).mp services
  simp [step, running, due]

theorem settle_registers (cpu : Cpu β) (cycles : Nat) :
    (cpu.settle cycles).2.registers = cpu.registers := by
  simp only [settle]
  split <;> rfl

theorem Services.masked {cpu : Cpu β} {source : Interrupt} (services : cpu.Services source) :
    cpu.step.2.Masked := by
  rw [services.step_eq, Masked, settle_registers]
  cases source <;> rfl

/-! What one operation does to the requests. -/

abbrev Sometime (cpu : Cpu β) (operations : List Operation)
    (Meets : Cpu β → Operation → Prop) : Prop :=
  Dialogue.Sometime carryOut cpu operations Meets

end

end Cpu

end Nmos6502
