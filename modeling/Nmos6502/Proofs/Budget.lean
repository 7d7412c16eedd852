import Nmos6502.Proofs.Accounting

/-!
The budget of an execution against its steps. A step costs from two to seven cycles, so that a
budget pays for half as many steps and is overrun by six cycles at most, and an execution that is
cut in two goes the same way as a whole one.
-/

namespace Nmos6502.Cpu

variable {β : Type} [Bus β]

theorem step_cycles_bounds {cpu after : Cpu β} {cycles : Nat} (running : cpu.halted = false)
    (stepped : cpu.step = (.ok cycles, after)) : 2 ≤ cycles ∧ cycles ≤ 7 := by
  rcases cpu.step_cases with ⟨halted, _⟩ | ⟨source, _, _, taken⟩ | ⟨_, _, _, taken⟩ |
    ⟨_, _, _, taken⟩
  · simp [running] at halted
  · rw [taken] at stepped
    rw [(settle_eq_ok _ _ _ _ stepped).1]
    decide
  · simp [taken] at stepped
  · rw [taken] at stepped
    rw [(settle_eq_ok _ _ _ _ stepped).1]
    exact instructionCycles_bounds _ _ _

theorem illegal_of_halts {cpu : Cpu β} (running : cpu.halted = false)
    (halts : cpu.step.2.halted = true) :
    ∃ opcode address, cpu.step.1 = .error (.illegalOpcode opcode address) := by
  have signals := congrArg Signals.halted cpu.step_signals
  rcases cpu.step_cases with ⟨halted, _⟩ | ⟨source, _, due, _⟩ | ⟨_, _, _, taken⟩ |
    ⟨_, due, legal, _⟩
  · simp [running] at halted
  · simp only [running, due, Bool.false_eq_true, if_false] at signals
    have still : (cpu.signals.acknowledge source).halted = false := by
      cases source <;> exact running
    rw [still] at signals
    exact absurd halts (by simp [show cpu.step.2.halted = false from signals])
  · exact ⟨_, _, congrArg Prod.fst taken⟩
  · simp only [running, due, legal, Bool.false_eq_true, if_false] at signals
    exact absurd halts (by simp [show cpu.step.2.halted = false from signals])

theorem running_of_step {cpu after : Cpu β} {cycles : Nat} (running : cpu.halted = false)
    (stepped : cpu.step = (.ok cycles, after)) : after.halted = false := by
  rcases halts : after.halted with _ | _
  · rfl
  · obtain ⟨opcode, address, failed⟩ := illegal_of_halts running (by rw [stepped]; exact halts)
    simp [stepped] at failed

theorem counted_of_step {cpu after : Cpu β} {cycles : Nat}
    (stepped : cpu.step = (.ok cycles, after)) :
    after.counters.cycles = cpu.counters.cycles + cycles := by
  have succeeded : cpu.step.1 = .ok cycles := by rw [stepped]
  have counted := step_succeeded succeeded
  rwa [stepped] at counted

/-! The steps that a budget pays for. -/

def lastResult (cpu : Cpu β) : Nat → Except StepError Nat
  | 0 => .ok 0
  | earlier + 1 => (cpu.after earlier).step.1

structure Spends (cpu : Cpu β) (budget consumed count : Nat) : Prop where
  running : ∀ earlier < count, (cpu.after earlier).halted = false
  left : ∀ earlier < count,
    consumed + (cpu.after earlier).counters.cycles < cpu.counters.cycles + budget
  succeeded : ∀ earlier, earlier + 1 < count → ∃ cycles, (cpu.after earlier).step.1 = .ok cycles

theorem Spends.none (cpu : Cpu β) (budget consumed : Nat) : cpu.Spends budget consumed 0 :=
  ⟨nofun, nofun, nofun⟩

theorem Spends.once {cpu : Cpu β} {budget consumed : Nat} (running : cpu.halted = false)
    (left : consumed < budget) : cpu.Spends budget consumed 1 := by
  constructor
  · intro earlier before
    obtain rfl : earlier = 0 := by omega
    exact running
  · intro earlier before
    obtain rfl : earlier = 0 := by omega
    simp only [after]
    omega
  · intro earlier before
    omega

theorem Spends.next {cpu next : Cpu β} {budget consumed cycles count : Nat}
    (running : cpu.halted = false) (left : consumed < budget)
    (stepped : cpu.step = (.ok cycles, next))
    (spends : next.Spends budget (consumed + cycles) count) :
    cpu.Spends budget consumed (count + 1) := by
  have counted := counted_of_step stepped
  have later (earlier : Nat) : cpu.after (earlier + 1) = next.after earlier := by
    rw [after, stepped]
  constructor
  · intro earlier before
    cases earlier with
    | zero => exact running
    | succ earlier =>
        rw [later]
        exact spends.running earlier (by omega)
  · intro earlier before
    cases earlier with
    | zero =>
        simp only [after]
        omega
    | succ earlier =>
        rw [later]
        have enough := spends.left earlier (by omega)
        omega
  · intro earlier before
    cases earlier with
    | zero => exact ⟨cycles, by rw [after, stepped]⟩
    | succ earlier =>
        rw [later]
        exact spends.succeeded earlier (by omega)

theorem stepsFrom_spends (budget : Nat) (cpu : Cpu β) (consumed : Nat) :
    cpu.Spends budget consumed (cpu.stepsFrom budget consumed).length := by
  induction execution budget cpu consumed with
  | stop stopped =>
      rw [stepsFrom_stop _ stopped]
      exact .none _ _ _
  | fail left running stepped =>
      rw [stepsFrom_fail left running stepped]
      exact .once running left
  | step left running stepped _ ih =>
      rw [stepsFrom_step left running stepped]
      exact .next running left stepped ih

theorem stepsFrom_few (budget : Nat) (cpu : Cpu β) (consumed : Nat) :
    2 * (cpu.stepsFrom budget consumed).length ≤ budget - consumed + 1 := by
  induction execution budget cpu consumed with
  | stop stopped =>
      rw [stepsFrom_stop _ stopped, List.length_nil]
      omega
  | fail left running stepped =>
      rw [stepsFrom_fail left running stepped, List.length_singleton]
      omega
  | step left running stepped _ ih =>
      have bounds := step_cycles_bounds running stepped
      rw [stepsFrom_step left running stepped, List.length_cons]
      omega

theorem stepsFrom_eq_steps (budget : Nat) (cpu : Cpu β) (consumed : Nat) :
    cpu.stepsFrom budget consumed = cpu.steps (cpu.stepsFrom budget consumed).length := by
  induction execution budget cpu consumed with
  | stop stopped => simp [stepsFrom_stop _ stopped, steps]
  | fail left running stepped => simp [stepsFrom_fail left running stepped, steps, stepped]
  | step left running stepped _ ih =>
      rw [stepsFrom_step left running stepped, List.length_cons, steps, stepped]
      exact congrArg _ ih

/-! What an execution returns. -/

theorem executeFrom_error_iff (budget : Nat) (cpu : Cpu β) (consumed : Nat) (error : StepError) :
    (cpu.executeFrom budget consumed).1 = .error error ↔
      cpu.lastResult (cpu.stepsFrom budget consumed).length = .error error := by
  induction execution budget cpu consumed with
  | stop stopped =>
      rw [executeFrom_stop _ stopped, stepsFrom_stop _ stopped]
      simp [lastResult]
  | fail left running stepped =>
      rw [executeFrom_fail left running stepped, stepsFrom_fail left running stepped]
      simp [lastResult, after, stepped]
  | @step cpu consumed cycles next left running stepped _ ih =>
      rw [executeFrom_step left running stepped, stepsFrom_step left running stepped, ih,
        List.length_cons]
      cases (next.stepsFrom budget (consumed + cycles)).length with
      | zero => simp [lastResult, after, stepped]
      | succ earlier => simp only [lastResult, after, stepped]

/-- An execution returns the cycles that it has counted, never fewer than it was to use up unless
there was nothing to do. -/
structure Returns (cpu final : Cpu β) (budget consumed total : Nat) : Prop where
  counted : final.counters.cycles + consumed = cpu.counters.cycles + total
  bounds : (cpu.halted = true ∧ total = consumed ∧ final = cpu) ∨
    (budget ≤ consumed ∧ total = consumed ∧ final = cpu) ∨
    (budget ≤ total ∧ total ≤ budget + 6)

theorem executeFrom_returns (budget : Nat) (cpu : Cpu β) (consumed : Nat) {final : Cpu β}
    {total : Nat} (executed : cpu.executeFrom budget consumed = (.ok total, final)) :
    cpu.Returns final budget consumed total := by
  induction execution budget cpu consumed with
  | stop stopped =>
      rw [executeFrom_stop _ stopped] at executed
      cases executed
      refine ⟨rfl, ?_⟩
      rcases stopped with exhausted | halted
      · exact .inr (.inl ⟨exhausted, rfl, rfl⟩)
      · exact .inl ⟨halted, rfl, rfl⟩
  | fail left running stepped =>
      rw [executeFrom_fail left running stepped] at executed
      cases executed
  | @step cpu consumed cycles next left running stepped _ ih =>
      rw [executeFrom_step left running stepped] at executed
      obtain ⟨counted, bounds⟩ := ih executed
      have here := counted_of_step stepped
      have goesOn := running_of_step running stepped
      -- The last step begins within the budget and costs seven cycles at most.
      have price := step_cycles_bounds running stepped
      refine ⟨by omega, .inr (.inr ?_)⟩
      rcases bounds with ⟨halted, _⟩ | ⟨exhausted, rfl, _⟩ | within
      · simp [goesOn] at halted
      · omega
      · exact within

theorem executeFrom_halts (budget : Nat) (cpu : Cpu β) (consumed : Nat)
    (running : cpu.halted = false)
    (halts : (cpu.executeFrom budget consumed).2.halted = true) :
    ∃ opcode address,
      (cpu.executeFrom budget consumed).1 = .error (.illegalOpcode opcode address) := by
  induction execution budget cpu consumed with
  | stop stopped =>
      rw [executeFrom_stop _ stopped] at halts
      simp [running] at halts
  | fail left _ stepped =>
      rw [executeFrom_fail left running stepped] at halts ⊢
      obtain ⟨opcode, address, failed⟩ := illegal_of_halts running (by rw [stepped]; exact halts)
      rw [stepped] at failed
      exact ⟨opcode, address, failed⟩
  | step left _ stepped _ ih =>
      rw [executeFrom_step left running stepped] at halts ⊢
      exact ih (running_of_step running stepped) halts

theorem executeFrom_resume (budget : Nat) (cpu : Cpu β) (consumed : Nat) {final : Cpu β}
    {total limit : Nat} (executed : cpu.executeFrom budget consumed = (.ok total, final))
    (larger : budget ≤ limit) :
    cpu.executeFrom limit consumed = final.executeFrom limit total := by
  induction execution budget cpu consumed with
  | stop stopped =>
      rw [executeFrom_stop _ stopped] at executed
      cases executed
      rfl
  | fail left running stepped =>
      rw [executeFrom_fail left running stepped] at executed
      cases executed
  | step left running stepped _ ih =>
      rw [executeFrom_step left running stepped] at executed
      rw [executeFrom_step (by omega) running stepped]
      exact ih executed

theorem execute_add {cpu final : Cpu β} {budget total : Nat}
    (executed : cpu.execute budget = (.ok total, final)) (more : Nat) :
    cpu.execute (total + more) =
      ((final.execute more).1.map (total + ·), (final.execute more).2) := by
  have resumed := final.executeFrom_add total more 0
  rw [Nat.add_zero] at resumed
  rcases (executeFrom_returns budget cpu 0 executed).bounds with
    ⟨halted, rfl, rfl⟩ | ⟨_, rfl, rfl⟩ | ⟨enough, _⟩
  · exact resumed
  · exact resumed
  · exact (executeFrom_resume budget cpu 0 executed (by omega)).trans resumed

/-- An execution takes no more steps than its budget pays for and returns what they cost, or the
error of the last one. To execute on from where it ended is to execute all at once. -/
theorem execute_honours_budget (cpu : Cpu β) (budget : Nat) :
    (∃ count ≤ (budget + 1) / 2,
      cpu.stepsFrom budget 0 = cpu.steps count ∧
      (cpu.execute budget).2 = cpu.after count ∧
      (∀ earlier < count, (cpu.after earlier).halted = false ∧
        (cpu.after earlier).counters.cycles < cpu.counters.cycles + budget) ∧
      (∀ earlier, earlier + 1 < count → ∃ cycles, (cpu.after earlier).step.1 = .ok cycles) ∧
      ∀ error, (cpu.execute budget).1 = .error error ↔ cpu.lastResult count = .error error) ∧
    (cpu.halted = false → (cpu.execute budget).2.halted = true →
      ∃ opcode address, (cpu.execute budget).1 = .error (.illegalOpcode opcode address)) ∧
    ∀ consumed final, cpu.execute budget = (.ok consumed, final) →
      final.counters.cycles = cpu.counters.cycles + consumed ∧
      ((cpu.halted = true ∧ consumed = 0 ∧ final = cpu) ∨
        (budget = 0 ∧ consumed = 0 ∧ final = cpu) ∨
        (budget ≤ consumed ∧ consumed ≤ budget + 6)) ∧
      ∀ more, cpu.execute (consumed + more) =
        ((final.execute more).1.map (consumed + ·), (final.execute more).2) := by
  have spends := stepsFrom_spends budget cpu 0
  have few := stepsFrom_few budget cpu 0
  refine ⟨⟨(cpu.stepsFrom budget 0).length, by omega, stepsFrom_eq_steps budget cpu 0,
    cpu.executeFrom_after budget 0, ?_, spends.succeeded, executeFrom_error_iff budget cpu 0⟩,
    executeFrom_halts budget cpu 0, ?_⟩
  · intro earlier before
    have left := spends.left earlier before
    rw [Nat.zero_add] at left
    exact ⟨spends.running earlier before, left⟩
  · intro consumed final executed
    obtain ⟨counted, bounds⟩ := executeFrom_returns budget cpu 0 executed
    refine ⟨counted, ?_, execute_add executed⟩
    rcases bounds with halted | ⟨nothing, rest⟩ | within
    · exact .inl halted
    · exact .inr (.inl ⟨by omega, rest⟩)
    · exact .inr (.inr within)

def overrunningLoop : Cpu FlatMemory :=
  { memory := FlatMemory.zeroed.loadAll
      [(0x8000, [0x1E, 0xFF, 0x00, 0x4C, 0x00, 0x80]), (0xFFFA, [0x00, 0x80])]
    registers := { x := 1 }
    nmiRequested := true }

theorem overrunningLoop_honours_budget :
    overrunningLoop.execute 8 = (.ok 14, overrunningLoop.after 2) ∧
      (overrunningLoop.after 2).counters.cycles = overrunningLoop.counters.cycles + (8 + 6) ∧
      overrunningLoop.execute (14 + 9) =
        (((overrunningLoop.after 2).execute 9).1.map (14 + ·),
          ((overrunningLoop.after 2).execute 9).2) := by
  have entered : overrunningLoop.step = (.ok 7, overrunningLoop.after 1) :=
    Prod.ext (by decide +kernel) rfl
  have shifted : (overrunningLoop.after 1).step = (.ok 7, overrunningLoop.after 2) :=
    Prod.ext (by decide +kernel) rfl
  have executed : overrunningLoop.execute 8 = (.ok 14, overrunningLoop.after 2) := by
    rw [execute, executeFrom_step (by decide) rfl entered,
      executeFrom_step (by decide) (by decide +kernel) shifted,
      executeFrom_stop _ (.inl (by decide))]
  obtain ⟨counted, _, resumes⟩ :=
    (execute_honours_budget overrunningLoop 8).2.2 14 (overrunningLoop.after 2) executed
  exact ⟨executed, counted, resumes 9⟩

end Nmos6502.Cpu
