import Nmos6502.Memory.Flat
import Nmos6502.Proofs.AlikeSteps
import Nmos6502.Proofs.Signals

/-!
What a processor keeps over a reset. Apart from A, X, Y and the flags it keeps where its last
step began, and so a wrap of the stack that the host brings about before the next step is
stamped with a step from before the reset.
-/

namespace Nmos6502

namespace Cpu

section

variable {β : Type}

structure SameForReset (left right : Cpu β) : Prop where
  a : left.registers.a = right.registers.a
  x : left.registers.x = right.registers.x
  y : left.registers.y = right.registers.y
  flags : ∀ flag ≠ .interruptDisable,
    left.registers.status.get flag = right.registers.status.get flag
  config : left.config = right.config
  memory : left.memory = right.memory

/-- A processor as its getters show it, which do not tell where its last step began. -/
def seen (cpu : Cpu β) : Cpu β :=
  { cpu with origin := {} }

theorem Alike.seen_eq {Stamp : Origin → Origin → Prop} {left right : Cpu β}
    (alike : Alike Eq Stamp left right) (never : left.lastStackWrap = none) :
    left.seen = right.seen := by
  apply Alike.eq
  exact { alike with
    lastStackWrap := (StackWrap.rel_alike_eq_iff _ _).mpr (alike.noWrap_eq never)
    origin := rfl }

variable [Bus β]

theorem SameForReset.registers {left right : Cpu β} (same : SameForReset left right) :
    left.reset.registers = right.reset.registers := by
  have status : ({ left.registers.status with interruptDisable := true } : Status) =
      { right.registers.status with interruptDisable := true } := by
    apply Status.ext_get
    intro flag
    have agreed := same.flags flag
    cases flag <;> simp_all [Status.get]
  simp only [reset, same.a, same.x, same.y, same.memory, status]

theorem SameForReset.reset_alike {left right : Cpu β} (same : SameForReset left right)
    {Stamp : Origin → Origin → Prop} (stamp : Stamp left.origin right.origin) :
    Alike Eq Stamp left.reset right.reset where
  memory := same.memory
  config := same.config
  registers := same.registers
  counters := rfl
  halted := rfl
  nmiRequested := rfl
  irqRequested := rfl
  stackWraps := rfl
  lastStackWrap := .none
  origin := stamp
  lastStep := rfl
  lastInstruction := rfl
  accesses := rfl

section

variable {Stamp : Origin → Origin → Prop} {left right : Cpu β}

/-- A step forgets where the one before it began, unless a wrap keeps it. -/
theorem Alike.step_eq (alike : Alike Eq Stamp left right) (never : left.lastStackWrap = none) :
    left.step = right.step := by
  have begun : left.begin = right.begin := by
    apply Alike.eq
    exact { alike with
      lastStackWrap := (StackWrap.rel_alike_eq_iff _ _).mpr (alike.noWrap_eq never)
      origin := by simp only [Cpu.begin, alike.registers, alike.counters]
      accesses := rfl }
  have leftBegins : left.begin.step = left.step := rfl
  have rightBegins : right.begin.step = right.step := rfl
  rw [← leftBegins, begun, rightBegins]

theorem Alike.carryOut_step_eq (alike : Alike Eq Stamp left right)
    (never : left.lastStackWrap = none) (running : left.halted = false) {operation : Operation}
    (stepping : operation.takesStep = true) :
    left.carryOut operation = right.carryOut operation := by
  have sameStep := alike.step_eq never
  have alsoRunning : right.halted = false := alike.halted.symm.trans running
  cases operation with
  | step => simp only [Cpu.carryOut, sameStep]
  | execute budget =>
      have enough : 0 < budget := by simpa [Operation.takesStep] using stepping
      simp only [Cpu.carryOut, execute]
      rcases stepped : left.step with ⟨error | cycles, after⟩
      · rw [executeFrom_fail enough running stepped,
          executeFrom_fail enough alsoRunning (sameStep.symm.trans stepped)]
      · rw [executeFrom_step enough running stepped,
          executeFrom_step enough alsoRunning (sameStep.symm.trans stepped)]
  | _ => simp [Operation.takesStep] at stepping

theorem Alike.carryOutAll_seen_eq (alike : Alike Eq Stamp left right)
    (running : left.halted = false) {operations : List Operation}
    (unwrapped : ∀ earlier, earlier <+: operations → earlier.all (!·.takesStep) = true →
      (left.carryOutAll earlier).2.lastStackWrap = none) :
    (left.carryOutAll operations).2.seen = (right.carryOutAll operations).2.seen := by
  have never : left.lastStackWrap = none := unwrapped [] List.nil_prefix rfl
  induction operations generalizing left right with
  | nil => exact alike.seen_eq never
  | cons operation rest ih =>
      simp only [Cpu.carryOutAll, Dialogue.run_cons]
      -- The first step forgets the stamp; up to there no wrap may take it up.
      rcases stepping : operation.takesStep with _ | _
      · have stillAlike := (alike.carryOut_still Bus.matches_eq stepping).2
        have signals := left.carryOut_signals stepping
        have stillRunning : (left.carryOut operation).2.halted = false :=
          (congrArg Signals.halted signals).trans (Signals.answer_running running operation)
        have later : ∀ earlier, earlier <+: rest → earlier.all (!·.takesStep) = true →
            ((left.carryOut operation).2.carryOutAll earlier).2.lastStackWrap = none := by
          intro earlier leading still
          apply unwrapped (operation :: earlier) (List.cons_prefix_cons.mpr ⟨rfl, leading⟩)
          rw [List.all_cons, stepping, still]
          rfl
        exact ih stillAlike stillRunning later (later [] List.nil_prefix rfl)
      · rw [alike.carryOut_step_eq never running stepping]

end

/-- After a reset two processors that agree in what it keeps answer alike for good and show the
same, down to the kind of the last wrap of the stack. What may tell them apart is the stamp
of that wrap. It never does exactly if their last steps had begun alike, or the host brings
about no wrap before the first step. -/
theorem reset_hides_all_but_stamp {left right : Cpu β} (same : SameForReset left right)
    (operations : List Operation) :
    (left.reset.carryOutAll operations).1 = (right.reset.carryOutAll operations).1 ∧
      Alike Eq
        (fun first second => first = second ∨ first = left.origin ∧ second = right.origin)
        (left.reset.carryOutAll operations).2 (right.reset.carryOutAll operations).2 ∧
      ((∀ earlier, earlier <+: operations →
          (left.reset.carryOutAll earlier).2.seen = (right.reset.carryOutAll earlier).2.seen) ↔
        left.origin = right.origin ∨
          ∀ earlier, earlier <+: operations → earlier.all (!·.takesStep) = true →
            (left.reset.carryOutAll earlier).2.lastStackWrap = none) := by
  have alike : Alike Eq
      (fun first second => first = second ∨ first = left.origin ∧ second = right.origin)
      left.reset right.reset := same.reset_alike (.inr ⟨rfl, rfl⟩)
  obtain ⟨answers, stillAlike⟩ := alike.carryOutAll Bus.matches_eq (fun _ => .inl rfl) operations
  refine ⟨answers, stillAlike, ?_, ?_⟩
  · intro shown
    by_cases sameOrigin : left.origin = right.origin
    · exact .inl sameOrigin
    · right
      intro earlier leading still
      have pinned : Alike Eq
          (fun first second => first = left.origin ∧ second = right.origin)
          left.reset right.reset := same.reset_alike ⟨rfl, rfl⟩
      have wraps := (pinned.carryOutAll_still Bus.matches_eq still).2.lastStackWrap
      have shownWraps := congrArg Cpu.lastStackWrap (shown earlier leading)
      have sameWraps : (left.reset.carryOutAll earlier).2.lastStackWrap =
          (right.reset.carryOutAll earlier).2.lastStackWrap := shownWraps
      rcases found : (left.reset.carryOutAll earlier).2.lastStackWrap with _ | wrap
      · rfl
      · -- One and the same record would bear the stamps of both.
        rw [← sameWraps, found] at wraps
        cases wraps with
        | some stamped => exact absurd (stamped.2.1.symm.trans stamped.2.2) sameOrigin
  · intro indistinct earlier leading
    rcases indistinct with sameOrigin | unwrapped
    · rw [(same.reset_alike sameOrigin).eq]
    · apply alike.carryOutAll_seen_eq rfl
      intro first before still
      exact unwrapped first (before.trans leading) still

end

def unworn : Cpu FlatMemory :=
  create (FlatMemory.zeroed.load 0 [0xEA, 0xEA]) {}

def wrapByHost : List Operation :=
  [.setRegisters fun registers => { registers with stackPointer := 0 }, .push 0]

theorem unworn_sameForReset : SameForReset unworn (unworn.after 2) := by
  refine ⟨by decide +kernel, by decide +kernel, by decide +kernel, ?_, rfl, ?_⟩
  · intro flag _
    cases flag <;> decide +kernel
  · rfl

theorem reset_keeps_stamp :
    SameForReset unworn (unworn.after 2) ∧
      (unworn.reset.carryOutAll wrapByHost).2.lastStackWrap = some ⟨.overflow, ⟨0, 0⟩⟩ ∧
      ((unworn.after 2).reset.carryOutAll wrapByHost).2.lastStackWrap =
        some ⟨.overflow, ⟨1, 2⟩⟩ :=
  ⟨unworn_sameForReset, by decide +kernel, by decide +kernel⟩

theorem unworn_reset_hides_all :
    SameForReset unworn (unworn.after 2) ∧
      ∀ earlier, earlier <+: .step :: wrapByHost →
        (unworn.reset.carryOutAll earlier).2.seen =
          ((unworn.after 2).reset.carryOutAll earlier).2.seen := by
  refine ⟨unworn_sameForReset, ?_⟩
  apply (reset_hides_all_but_stamp unworn_sameForReset (.step :: wrapByHost)).2.2.mpr
  right
  intro earlier leading still
  cases earlier with
  | nil => rfl
  | cons first rest =>
      obtain ⟨rfl, -⟩ := List.cons_prefix_cons.mp leading
      simp [Operation.takesStep] at still

end Cpu

end Nmos6502
