import Nmos6502.Proofs.AlikeSteps
import Nmos6502.Proofs.Run
import Nmos6502.Proofs.SessionOperations

/-!
Sessions on two buses that agree in all that a host can see of them. The debugger sees the
same on both, and so steps, runs, watchpoints and dumps answer alike.
-/

namespace Nmos6502

namespace Cpu.Alike

variable {β γ : Type} [Bus β] [Bus γ] {Same : β → γ → Prop} {Stamp : Origin → Origin → Prop}
  {left : Cpu β} {right : Cpu γ}

theorem valueSeen (alike : Alike Same Stamp left right) (agreed : Bus.Matches Same)
    (access : Access) : Debugger.valueSeen left access = Debugger.valueSeen right access := by
  simp only [Debugger.valueSeen, agreed.peek alike.memory]

theorem watchAccess (alike : Alike Same Stamp left right) (agreed : Bus.Matches Same)
    (debugger : Debugger) (access : Access) :
    debugger.watchAccess left access = debugger.watchAccess right access := by
  simp only [Debugger.watchAccess, alike.valueSeen agreed, alike.registers, alike.counters]

theorem watchAccesses (alike : Alike Same Stamp left right) (agreed : Bus.Matches Same)
    (debugger : Debugger) (log : List Access) :
    debugger.watchAccesses left log = debugger.watchAccesses right log := by
  induction log generalizing debugger with
  | nil => rfl
  | cons access rest ih =>
      simp only [Debugger.watchAccesses, alike.watchAccess agreed, ih]

theorem observe (alike : Alike Same Stamp left right) (agreed : Bus.Matches Same)
    (debugger : Debugger) : debugger.observe left = debugger.observe right := by
  simp only [Debugger.observe, Debugger.lookAround, Debugger.meetBreakpoint, alike.lastStep,
    alike.registers, alike.counters, alike.accesses, alike.watchAccesses agreed]

theorem dump (alike : Alike Same Stamp left right) (agreed : Bus.Matches Same) (start : UInt16)
    (length : Nat) : Dump.text left.memory start length = Dump.text right.memory start length := by
  have rows (address : UInt16) (count : Nat) :
      Dump.rowText left.memory address count = Dump.rowText right.memory address count := by
    unfold Dump.rowText Dump.rowCells Dump.cellAt
    simp only [agreed.peek alike.memory]
  rw [Dump.text, Dump.text]
  fun_induction Dump.writeRows left.memory start length 0 "" with
  | case1 offset written below count ih =>
      rw [ih, Dump.writeRows.eq_def right.memory start length offset, if_pos below, rows]
  | case2 offset written past => rw [Dump.writeRows, if_neg past]

end Cpu.Alike

namespace Session

/-- Sessions that differ in nothing but related memories. -/
structure Alike {β γ : Type} (Same : β → γ → Prop) (left : Session β) (right : Session γ) :
    Prop where
  cpu : Cpu.Alike Same Eq left.cpu right.cpu
  debugger : left.debugger = right.debugger

namespace Alike

variable {β γ : Type} [Bus β] [Bus γ] {Same : β → γ → Prop} {left : Session β}
  {right : Session γ}

theorem stepSighted (alike : Alike Same left right) (agreed : Bus.Matches Same) :
    left.stepSighted.1 = right.stepSighted.1 ∧
      left.stepSighted.2.1 = right.stepSighted.2.1 ∧
      Alike Same left.stepSighted.2.2 right.stepSighted.2.2 := by
  obtain ⟨result, after⟩ := alike.cpu.step agreed fun _ => rfl
  have observed :
      left.debugger.observe left.cpu.step.2 = right.debugger.observe right.cpu.step.2 := by
    rw [alike.debugger, after.observe agreed]
  exact ⟨result, congrArg Prod.snd observed, after, congrArg Prod.fst observed⟩

theorem stepped (alike : Alike Same left right) (agreed : Bus.Matches Same)
    {result : Except StepError Nat} {sighting : Sighting} {after : Session β}
    (stepped : left.stepSighted = (result, sighting, after)) :
    ∃ other, right.stepSighted = (result, sighting, other) ∧ Alike Same after other := by
  obtain ⟨sameResult, sameSighting, stillAlike⟩ := alike.stepSighted agreed
  rw [stepped] at sameResult sameSighting stillAlike
  exact ⟨right.stepSighted.2.2, Prod.ext sameResult.symm (Prod.ext sameSighting.symm rfl),
    stillAlike⟩

theorem runFrom (alike : Alike Same left right) (agreed : Bus.Matches Same)
    (budget consumed : Nat) :
    (left.runFrom budget consumed).1 = (right.runFrom budget consumed).1 ∧
      Alike Same (left.runFrom budget consumed).2 (right.runFrom budget consumed).2 := by
  induction run_ends budget left consumed generalizing right with
  | halted halted =>
      rw [runFrom_halted halted, runFrom_halted (alike.cpu.halted.symm.trans halted)]
      exact ⟨rfl, alike⟩
  | exhausted running exhausted =>
      rw [runFrom_exhausted running exhausted,
        runFrom_exhausted (alike.cpu.halted.symm.trans running) exhausted]
      exact ⟨rfl, alike⟩
  | fail running enough stepped =>
      obtain ⟨other, alsoStepped, after⟩ := alike.stepped agreed stepped
      rw [runFrom_fail running enough stepped,
        runFrom_fail (alike.cpu.halted.symm.trans running) enough alsoStepped]
      exact ⟨rfl, after⟩
  | stop running enough stepped stopped =>
      obtain ⟨other, alsoStepped, after⟩ := alike.stepped agreed stepped
      rw [runFrom_stop running enough stepped stopped,
        runFrom_stop (alike.cpu.halted.symm.trans running) enough alsoStepped stopped]
      exact ⟨rfl, after⟩
  | step running enough stepped undisturbed _ ih =>
      obtain ⟨other, alsoStepped, after⟩ := alike.stepped agreed stepped
      rw [runFrom_step running enough stepped undisturbed,
        runFrom_step (alike.cpu.halted.symm.trans running) enough alsoStepped undisturbed]
      exact ih after

theorem summary (alike : Alike Same left right) (mirrors : Bus.Mirrors Same) :
    left.summary = right.summary := by
  have wrap := (StackWrap.rel_alike_eq_iff _ _).mp alike.cpu.lastStackWrap
  simp only [Session.summary, alike.debugger, alike.cpu.registers, alike.cpu.counters,
    alike.cpu.halted, alike.cpu.nmiRequested, alike.cpu.irqPending mirrors,
    alike.cpu.lastInstruction, alike.cpu.stackWraps, wrap]

theorem carryOut (alike : Alike Same left right) (agreed : Bus.Matches Same)
    (operation : Operation) :
    (left.carryOut operation).1 = (right.carryOut operation).1 ∧
      Alike Same (left.carryOut operation).2 (right.carryOut operation).2 := by
  cases operation with
  | processor operation =>
      obtain ⟨answer, after⟩ := alike.cpu.carryOut agreed (fun _ => rfl) operation
      exact ⟨congrArg Answer.processor answer, after, alike.debugger⟩
  | step =>
      obtain ⟨result, _, after⟩ := alike.stepSighted agreed
      exact ⟨congrArg Answer.stepped result, after⟩
  | run budget =>
      obtain ⟨result, after⟩ := alike.runFrom agreed budget 0
      exact ⟨congrArg Answer.ran result, after⟩
  | observe =>
      refine ⟨rfl, alike.cpu, ?_⟩
      simp only [Session.carryOut, Session.observe, alike.debugger, alike.cpu.observe agreed]
  | watch address filter condition name =>
      refine ⟨rfl, alike.cpu, ?_⟩
      simp only [Session.carryOut, Session.watch, Session.setWatchpoint, alike.debugger,
        agreed.peek alike.cpu.memory]
  | adjust update => exact ⟨rfl, alike.cpu, congrArg update alike.debugger⟩
  | takeEvents =>
      have taken := congrArg Debugger.takeEvents alike.debugger
      exact ⟨congrArg Answer.events (congrArg Prod.fst taken), alike.cpu, congrArg Prod.snd taken⟩
  | dump start length => exact ⟨congrArg Answer.text (alike.cpu.dump agreed start length), alike⟩
  | summarize => exact ⟨congrArg Answer.summary (alike.summary agreed.toMirrors), alike⟩

theorem carryOutAll (alike : Alike Same left right) (agreed : Bus.Matches Same)
    (operations : List Operation) :
    (left.carryOutAll operations).1 = (right.carryOutAll operations).1 ∧
      Alike Same (left.carryOutAll operations).2 (right.carryOutAll operations).2 :=
  Dialogue.run_related (fun operation _ _ _ alike => alike.carryOut agreed operation) alike

end Alike

end Session

end Nmos6502
