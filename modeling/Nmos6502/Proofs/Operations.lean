import Nmos6502.Cpu.Execute
import Nmos6502.Proofs.Dialogue

/-!
All that a host can ask of a processor and, past it, of the bus that it is attached to.
-/

namespace Nmos6502

inductive Operation
  | step
  | execute (budget : Nat)
  | reset
  | requestIrq
  | withdrawIrq
  | requestNmi
  | setRegisters (update : Registers → Registers)
  | configure (config : CpuConfig)
  | read (address : UInt16)
  | write (address : UInt16) (value : UInt8)
  | push (value : UInt8)
  | pull
  | pushWord (value : UInt16)
  | pullWord
  /-- From here on past the processor, which records nothing. -/
  | readBus (address : UInt16)
  | writeBus (address : UInt16) (value : UInt8)
  | peekBus (address : UInt16)
  | resetBus
  | takeFault
  | senseLine

def Operation.takesStep : Operation → Bool
  | step => true
  | execute budget => 0 < budget
  | _ => false

inductive Answer
  | done
  | consumed (result : Except StepError Nat)
  | byte (value : UInt8)
  | word (value : UInt16)
  | peeked (value : Option UInt8)
  | fault (fault : Option BusFault)
  | line (pulled : Bool)

namespace Cpu

variable {β : Type} [Bus β]

def carryOut (cpu : Cpu β) : Operation → Answer × Cpu β
  | .step => (.consumed cpu.step.1, cpu.step.2)
  | .execute budget => (.consumed (cpu.execute budget).1, (cpu.execute budget).2)
  | .reset => (.done, cpu.reset)
  | .requestIrq => (.done, cpu.requestIrq)
  | .withdrawIrq => (.done, cpu.withdrawIrq)
  | .requestNmi => (.done, cpu.requestNmi)
  | .setRegisters update => (.done, cpu.mapRegisters update)
  | .configure config => (.done, { cpu with config })
  | .read address => (.byte (cpu.read address).1, (cpu.read address).2)
  | .write address value => (.done, cpu.write address value)
  | .push value => (.done, cpu.pushByte value)
  | .pull => (.byte cpu.pullByte.1, cpu.pullByte.2)
  | .pushWord value => (.done, cpu.pushWord value)
  | .pullWord => (.word cpu.pullWord.1, cpu.pullWord.2)
  | .readBus address => (.byte (Bus.read cpu.memory address), cpu)
  | .writeBus address value =>
      (.done, { cpu with memory := Bus.write cpu.memory address value })
  | .peekBus address => (.peeked (Bus.peek cpu.memory address), cpu)
  | .resetBus => (.done, { cpu with memory := Bus.reset cpu.memory })
  | .takeFault =>
      (.fault (Bus.fault cpu.memory), { cpu with memory := Bus.clearFault cpu.memory })
  | .senseLine => (.line (Bus.interruptLine cpu.memory), cpu)

theorem carryOut_execute_still (cpu : Cpu β) {budget : Nat}
    (still : (Operation.execute budget).takesStep = false) :
    cpu.carryOut (.execute budget) = (.consumed (.ok 0), cpu) := by
  have nothing : budget = 0 := by simpa [Operation.takesStep] using still
  simp only [carryOut, execute, nothing, executeFrom_stop cpu (.inl (Nat.le_refl 0))]

def carryOutAll (cpu : Cpu β) (operations : List Operation) : List Answer × Cpu β :=
  Dialogue.run carryOut cpu operations

end Cpu

end Nmos6502
