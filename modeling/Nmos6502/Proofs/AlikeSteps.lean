import Nmos6502.Proofs.Alike
import Nmos6502.Proofs.Operations
import Nmos6502.Proofs.Steps

/-!
Processors on two buses that agree in all that a host can see of them. Their steps, their
executions, and all other operations give the same answers and leave them alike.
-/

namespace Nmos6502

structure Bus.Matches {β γ : Type} [Bus β] [Bus γ] (Same : β → γ → Prop) : Prop
    extends Bus.Mirrors Same where
  peek : ∀ {left right}, Same left right → ∀ address,
    Bus.peek left address = Bus.peek right address
  fault : ∀ {left right}, Same left right → Bus.fault left = Bus.fault right
  clearFault : ∀ {left right}, Same left right → Same (Bus.clearFault left) (Bus.clearFault right)
  reset : ∀ {left right}, Same left right → Same (Bus.reset left) (Bus.reset right)

theorem Bus.matches_eq {β : Type} [Bus β] : Bus.Matches (Eq : β → β → Prop) where
  read same address := by rw [same]
  write same address value := by rw [same]
  interruptLine same := by rw [same]
  peek same address := by rw [same]
  fault same := by rw [same]
  clearFault same := by rw [same]
  reset same := by rw [same]

namespace Cpu.Alike

variable {β γ : Type} [Bus β] [Bus γ] {Same : β → γ → Prop} {Stamp : Origin → Origin → Prop}
  {left : Cpu β} {right : Cpu γ}

theorem settle (alike : Alike Same Stamp left right) (agreed : Bus.Matches Same) (cycles : Nat) :
    (left.settle cycles).1 = (right.settle cycles).1 ∧
      Alike Same Stamp (left.settle cycles).2 (right.settle cycles).2 := by
  simp only [Cpu.settle, agreed.fault alike.memory]
  split
  · exact ⟨rfl, { alike with memory := agreed.clearFault alike.memory }⟩
  · exact ⟨rfl, alike⟩

theorem step_ends (alike : Alike Same Stamp left right) (mirrors : Bus.Mirrors Same)
    (reflexive : ∀ origin, Stamp origin origin) (Ends : Outcome β → Outcome γ → Prop)
    (settled : ∀ {left right}, Alike Same Stamp left right → ∀ cycles,
      Ends (left.settle cycles) (right.settle cycles))
    (unsettled : ∀ {left right}, Alike Same Stamp left right → ∀ result,
      Ends (result, left) (result, right)) :
    Ends left.step right.step := by
  have begun := alike.begin reflexive
  simp only [Cpu.step, alike.halted, alike.dueInterrupt mirrors, alike.meetsIllegalOpcode mirrors]
  split
  · have idle : Alike Same Stamp { left.begin with lastStep := .halted }
        { right.begin with lastStep := .halted } :=
      { begun with lastStep := rfl }
    exact unsettled idle (.ok 0)
  · split
    · exact settled (begun.serviceInterrupt mirrors _) Interrupt.cycles
    · split
      · rw [alike.opcodeByte mirrors, alike.registers]
        have halted : Alike Same Stamp { left.begin with halted := true, lastStep := .halted }
            { right.begin with halted := true, lastStep := .halted } :=
          { begun with halted := rfl, lastStep := rfl }
        exact unsettled halted (.error _)
      · rw [alike.nextInstruction mirrors]
        exact settled (begun.executeInstruction mirrors) _

theorem step (alike : Alike Same Stamp left right) (agreed : Bus.Matches Same)
    (reflexive : ∀ origin, Stamp origin origin) :
    left.step.1 = right.step.1 ∧ Alike Same Stamp left.step.2 right.step.2 := by
  apply alike.step_ends agreed.toMirrors reflexive fun first second =>
    first.1 = second.1 ∧ Alike Same Stamp first.2 second.2
  · intro left right alike cycles
    exact alike.settle agreed cycles
  · intro left right alike result
    exact ⟨rfl, alike⟩

theorem stepped (alike : Alike Same Stamp left right) (agreed : Bus.Matches Same)
    (reflexive : ∀ origin, Stamp origin origin) {result : Except StepError Nat} {after : Cpu β}
    (stepped : left.step = (result, after)) :
    ∃ other, right.step = (result, other) ∧ Alike Same Stamp after other := by
  obtain ⟨sameResult, stillAlike⟩ := alike.step agreed reflexive
  rw [stepped] at sameResult stillAlike
  exact ⟨right.step.2, Prod.ext sameResult.symm rfl, stillAlike⟩

theorem executeFrom (alike : Alike Same Stamp left right) (agreed : Bus.Matches Same)
    (reflexive : ∀ origin, Stamp origin origin) (budget consumed : Nat) :
    (left.executeFrom budget consumed).1 = (right.executeFrom budget consumed).1 ∧
      Alike Same Stamp (left.executeFrom budget consumed).2
        (right.executeFrom budget consumed).2 := by
  induction execution budget left consumed generalizing right with
  | stop stopped =>
      rw [executeFrom_stop _ stopped, executeFrom_stop right (by rwa [← alike.halted])]
      exact ⟨rfl, alike⟩
  | fail enough running stepped =>
      obtain ⟨other, alsoStepped, after⟩ := alike.stepped agreed reflexive stepped
      rw [executeFrom_fail enough running stepped,
        executeFrom_fail enough (alike.halted.symm.trans running) alsoStepped]
      exact ⟨rfl, after⟩
  | step enough running stepped _ ih =>
      obtain ⟨other, alsoStepped, after⟩ := alike.stepped agreed reflexive stepped
      rw [executeFrom_step enough running stepped,
        executeFrom_step enough (alike.halted.symm.trans running) alsoStepped]
      exact ih after

theorem reset (alike : Alike Same Stamp left right) (mirrors : Bus.Mirrors Same) :
    Alike Same Stamp left.reset right.reset :=
  { alike with
    registers := by simp only [Cpu.reset, alike.registers, alike.readWord mirrors]
    counters := rfl
    halted := rfl
    nmiRequested := rfl
    irqRequested := rfl
    stackWraps := rfl
    lastStackWrap := .none
    lastStep := rfl
    lastInstruction := rfl
    accesses := rfl }

/-- Without a step no stamp is made, so that they need only be related as they are. -/
theorem carryOut_still (alike : Alike Same Stamp left right) (agreed : Bus.Matches Same)
    {operation : Operation} (still : operation.takesStep = false) :
    (left.carryOut operation).1 = (right.carryOut operation).1 ∧
      Alike Same Stamp (left.carryOut operation).2 (right.carryOut operation).2 := by
  have mirrors := agreed.toMirrors
  cases operation with
  | step => simp [Operation.takesStep] at still
  | execute budget =>
      rw [left.carryOut_execute_still still, right.carryOut_execute_still still]
      exact ⟨rfl, alike⟩
  | reset => exact ⟨rfl, alike.reset mirrors⟩
  | requestIrq => exact ⟨rfl, { alike with irqRequested := rfl }⟩
  | withdrawIrq => exact ⟨rfl, { alike with irqRequested := rfl }⟩
  | requestNmi => exact ⟨rfl, { alike with nmiRequested := rfl }⟩
  | setRegisters update => exact ⟨rfl, alike.mapRegisters update⟩
  | configure config => exact ⟨rfl, { alike with config := rfl }⟩
  | read address =>
      obtain ⟨value, after⟩ := alike.read mirrors address
      exact ⟨congrArg Answer.byte value, after⟩
  | write address value => exact ⟨rfl, alike.write mirrors address value⟩
  | push value => exact ⟨rfl, alike.pushByte mirrors value⟩
  | pull =>
      obtain ⟨value, after⟩ := alike.pullByte mirrors
      exact ⟨congrArg Answer.byte value, after⟩
  | pushWord value => exact ⟨rfl, alike.pushWord mirrors value⟩
  | pullWord =>
      obtain ⟨value, after⟩ := alike.pullWord mirrors
      exact ⟨congrArg Answer.word value, after⟩
  | readBus address => exact ⟨congrArg Answer.byte (agreed.read alike.memory address), alike⟩
  | writeBus address value =>
      exact ⟨rfl, { alike with memory := agreed.write alike.memory address value }⟩
  | peekBus address => exact ⟨congrArg Answer.peeked (agreed.peek alike.memory address), alike⟩
  | resetBus => exact ⟨rfl, { alike with memory := agreed.reset alike.memory }⟩
  | takeFault =>
      exact ⟨congrArg Answer.fault (agreed.fault alike.memory),
        { alike with memory := agreed.clearFault alike.memory }⟩
  | senseLine => exact ⟨congrArg Answer.line (agreed.interruptLine alike.memory), alike⟩

theorem carryOut (alike : Alike Same Stamp left right) (agreed : Bus.Matches Same)
    (reflexive : ∀ origin, Stamp origin origin) (operation : Operation) :
    (left.carryOut operation).1 = (right.carryOut operation).1 ∧
      Alike Same Stamp (left.carryOut operation).2 (right.carryOut operation).2 := by
  cases operation with
  | step =>
      obtain ⟨result, after⟩ := alike.step agreed reflexive
      exact ⟨congrArg Answer.consumed result, after⟩
  | execute budget =>
      obtain ⟨result, after⟩ := alike.executeFrom agreed reflexive budget 0
      exact ⟨congrArg Answer.consumed result, after⟩
  | _ => exact alike.carryOut_still agreed rfl

theorem carryOutAll (alike : Alike Same Stamp left right) (agreed : Bus.Matches Same)
    (reflexive : ∀ origin, Stamp origin origin) (operations : List Operation) :
    (left.carryOutAll operations).1 = (right.carryOutAll operations).1 ∧
      Alike Same Stamp (left.carryOutAll operations).2 (right.carryOutAll operations).2 :=
  Dialogue.run_related
    (fun operation _ _ _ alike => alike.carryOut agreed reflexive operation) alike

theorem carryOutAll_still (alike : Alike Same Stamp left right) (agreed : Bus.Matches Same)
    {operations : List Operation} (still : operations.all (!·.takesStep) = true) :
    (left.carryOutAll operations).1 = (right.carryOutAll operations).1 ∧
      Alike Same Stamp (left.carryOutAll operations).2 (right.carryOutAll operations).2 := by
  rw [List.all_eq_true] at still
  apply Dialogue.run_related _ alike
  intro operation member left right alike
  exact alike.carryOut_still agreed (by simpa using still operation member)

end Cpu.Alike

end Nmos6502
