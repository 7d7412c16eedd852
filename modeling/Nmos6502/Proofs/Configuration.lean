import Nmos6502.Memory.Flat
import Nmos6502.Proofs.Halting

/-!
What a processor owes to its configuration: whether accesses are recorded, and what becomes of an
illegal opcode. A change of either goes through all that the processor does unaltered, so that
nothing else can depend on it.
-/

namespace Nmos6502

def Operation.configures : Operation → Bool
  | configure _ => true
  | _ => false

def Answer.reportsIllegal : Answer → Bool
  | consumed (.error (.illegalOpcode _ _)) => true
  | _ => false

/-- A change of the configuration and of the log for which it makes no difference whether an
access is recorded before the change or after it. -/
structure Refit where
  config : CpuConfig → CpuConfig
  log : List Access → List Access
  log_nil : log [] = []
  log_recorded : ∀ setting accesses access,
    log (if setting.recordAccesses then accesses ++ [access] else accesses) =
      if (config setting).recordAccesses then log accesses ++ [access] else log accesses

namespace Refit

def unrecorded : Refit where
  config setting := { setting with recordAccesses := false }
  log _ := []
  log_nil := rfl
  log_recorded _ _ _ := rfl

def lenient : Refit where
  config setting := { setting with illegal := .skip }
  log accesses := accesses
  log_nil := rfl
  log_recorded _ _ _ := rfl

/-- The change keeps the policy, or it is one that skips illegal opcodes and the answer reports
none. -/
def Tolerates (refit : Refit) (answer : Answer) : Prop :=
  (∀ setting, (refit.config setting).illegal = setting.illegal) ∨
    (∀ setting, (refit.config setting).illegal = .skip) ∧ answer.reportsIllegal = false

theorem unrecorded_tolerates (answer : Answer) : unrecorded.Tolerates answer :=
  .inl fun _ => rfl

theorem Tolerates.legal {refit : Refit} {answer other : Answer} (tolerates : refit.Tolerates answer)
    (legal : other.reportsIllegal = false) : refit.Tolerates other :=
  tolerates.imp_right fun skips => ⟨skips.1, legal⟩

end Refit

namespace Cpu

section

variable {β : Type}

def refit (cpu : Cpu β) (change : Refit) : Cpu β :=
  { cpu with config := change.config cpu.config, accesses := change.log cpu.accesses }

variable (cpu : Cpu β) (change : Refit)

@[simp] theorem refit_registers : (cpu.refit change).registers = cpu.registers := rfl

@[simp] theorem refit_memory : (cpu.refit change).memory = cpu.memory := rfl

@[simp] theorem refit_mapRegisters (update : Registers → Registers) :
    (cpu.refit change).mapRegisters update = (cpu.mapRegisters update).refit change := rfl

@[simp] theorem refit_noteStackWrap (kind : WrapKind) :
    (cpu.refit change).noteStackWrap kind = (cpu.noteStackWrap kind).refit change := rfl

@[simp] theorem refit_retire (instruction : ExecutedInstruction) :
    (cpu.refit change).retire instruction = (cpu.retire instruction).refit change := rfl

@[simp] theorem refit_begin : (cpu.refit change).begin = cpu.begin.refit change := by
  simp only [begin, refit, change.log_nil]

@[simp] theorem refit_record (access : Access) :
    (cpu.refit change).record access = (cpu.record access).refit change := by
  have recorded := change.log_recorded cpu.config cpu.accesses access
  rcases before : cpu.config.recordAccesses with _ | _ <;>
    rcases after : (change.config cpu.config).recordAccesses with _ | _ <;>
    simp_all [record, refit]

@[simp] theorem refit_follow (place : Place) :
    Action.follow place (cpu.refit change) = (Action.follow place cpu).refit change := by
  cases place <;> rfl

@[simp] theorem refit_acknowledge (source : Interrupt) :
    (cpu.refit change).acknowledge source = (cpu.acknowledge source).refit change := by
  cases source <;> rfl

def recording (setting : Bool) : Cpu β :=
  { cpu with config := { cpu.config with recordAccesses := setting } }

def under (policy : IllegalPolicy) : Cpu β :=
  { cpu with config := { cpu.config with illegal := policy } }

theorem eq_of_unrecorded {left right : Cpu β}
    (same : left.refit .unrecorded = right.refit .unrecorded)
    (silent : left.config.recordAccesses = false) :
    left = { right.recording false with accesses := left.accesses } := by
  have config : { left.config with recordAccesses := false } = left.config := by
    rw [← silent]
  calc left = { left.refit .unrecorded with accesses := left.accesses } := by
        simp only [refit, Refit.unrecorded, config]
    _ = { right.recording false with accesses := left.accesses } := by rw [same]; rfl

variable [Bus β]

@[simp] theorem refit_read (address : UInt16) :
    (cpu.refit change).read address =
      ((cpu.read address).1, (cpu.read address).2.refit change) :=
  Prod.ext rfl (refit_record cpu change _)

@[simp] theorem refit_write (address : UInt16) (value : UInt8) :
    (cpu.refit change).write address value = (cpu.write address value).refit change :=
  refit_record { cpu with memory := Bus.write cpu.memory address value } change _

@[simp] theorem refit_load (place : Place) :
    (cpu.refit change).load place = ((cpu.load place).1, (cpu.load place).2.refit change) := by
  cases place with
  | cell address => exact cpu.refit_read change address
  | nowhere | accumulator | constant value => rfl

@[simp] theorem refit_store (place : Place) (value : UInt8) :
    (cpu.refit change).store place value = (cpu.store place value).refit change := by
  cases place with
  | cell address => exact cpu.refit_write change address value
  | nowhere | accumulator | constant value => rfl

@[simp] theorem refit_pushByte (value : UInt8) :
    (cpu.refit change).pushByte value = (cpu.pushByte value).refit change := by
  simp only [pushByte, refit_registers, refit_write]
  split <;> rfl

@[simp] theorem refit_pullByte :
    (cpu.refit change).pullByte = (cpu.pullByte.1, cpu.pullByte.2.refit change) := by
  by_cases top : cpu.registers.stackPointer = 0xFF <;> simp [pullByte, setStackPointer, top]

@[simp] theorem refit_pushWord (value : UInt16) :
    (cpu.refit change).pushWord value = (cpu.pushWord value).refit change := by
  simp [pushWord]

@[simp] theorem refit_pullWord :
    (cpu.refit change).pullWord = (cpu.pullWord.1, cpu.pullWord.2.refit change) := by
  simp [pullWord]

@[simp] theorem refit_enterInterrupt (source : Interrupt) :
    (cpu.refit change).enterInterrupt source = (cpu.enterInterrupt source).refit change := by
  simp [enterInterrupt, setStatus, jumpTo]

@[simp] theorem refit_perform (action : Action) (place : Place) :
    action.perform place (cpu.refit change) = (action.perform place cpu).refit change := by
  cases action with
  | branch condition =>
      simp only [Action.perform, refit_registers, refit_follow]
      split <;> rfl
  | _ => simp [Action.perform, setStatus, jumpTo]

theorem refit_nextInstruction :
    (cpu.refit change).nextInstruction = cpu.nextInstruction := rfl

theorem refit_dueInterrupt : (cpu.refit change).dueInterrupt = cpu.dueInterrupt := rfl

theorem refit_serviceInterrupt (source : Interrupt) :
    (cpu.refit change).serviceInterrupt source = (cpu.serviceInterrupt source).refit change := by
  simp only [serviceInterrupt, refit_enterInterrupt]
  rfl

theorem refit_executeInstruction :
    (cpu.refit change).executeInstruction = cpu.executeInstruction.refit change := by
  simp [executeInstruction, refit_nextInstruction, opcodeByte, jumpTo]

theorem refit_settle (cycles : Nat) :
    (cpu.refit change).settle cycles =
      ((cpu.settle cycles).1, (cpu.settle cycles).2.refit change) := by
  simp only [settle, refit_memory]
  split <;> rfl

/-- A step that goes on from a legal opcode does so under the change, and one that does not go on
does not under a change that keeps the policy. -/
theorem refit_step (tolerates : change.Tolerates (.consumed cpu.step.1)) :
    (cpu.refit change).step = (cpu.step.1, cpu.step.2.refit change) := by
  have sameByte : (cpu.refit change).opcodeByte = cpu.opcodeByte := rfl
  have sameConfig : (cpu.refit change).config = change.config cpu.config := rfl
  rcases cpu.step_cases with ⟨halted, stepped⟩ | ⟨source, running, due, stepped⟩ |
    ⟨running, free, illegal, stepped⟩ | ⟨running, free, legal, stepped⟩
  · have alsoHalted : (cpu.refit change).halted = true := halted
    rw [step_eq_of_halted alsoHalted, stepped, refit_begin]
    rfl
  · have alsoRunning : (cpu.refit change).halted = false := running
    rw [stepped, ← refit_settle, ← refit_serviceInterrupt, ← refit_begin]
    simp only [step, alsoRunning, refit_dueInterrupt, due]
    rfl
  · have alsoRunning : (cpu.refit change).halted = false := running
    -- The answer reports an illegal opcode, so that the policy has to be the same.
    rcases tolerates with keeps | ⟨_, innocent⟩
    · have alsoIllegal : (cpu.refit change).meetsIllegalOpcode = true := by
        rw [meetsIllegalOpcode_iff] at illegal ⊢
        rwa [sameByte, sameConfig, keeps]
      rw [step_eq_of_illegal alsoRunning free alsoIllegal, stepped, refit_begin]
      rfl
    · simp [stepped, Answer.reportsIllegal] at innocent
  · have alsoRunning : (cpu.refit change).halted = false := running
    have alsoLegal : (cpu.refit change).meetsIllegalOpcode = false := by
      rw [Bool.eq_false_iff, ne_eq, meetsIllegalOpcode_iff] at legal ⊢
      rw [sameByte, sameConfig]
      rcases tolerates with keeps | ⟨skips, _⟩
      · rwa [keeps]
      · simp [skips]
    rw [stepped, ← refit_settle, ← refit_executeInstruction, ← refit_begin]
    simp only [step, alsoRunning, refit_dueInterrupt, free, alsoLegal]
    rfl

theorem refit_executeFrom (budget consumed : Nat)
    (tolerates : change.Tolerates (.consumed (cpu.executeFrom budget consumed).1)) :
    (cpu.refit change).executeFrom budget consumed =
      ((cpu.executeFrom budget consumed).1,
        (cpu.executeFrom budget consumed).2.refit change) := by
  induction execution budget cpu consumed with
  | stop stopped =>
      rw [executeFrom_stop _ stopped, executeFrom_stop (refit _ change) stopped]
  | @fail cpu consumed error after enough running stepped =>
      rw [executeFrom_fail enough running stepped] at tolerates ⊢
      have alsoStepped := cpu.refit_step change (by rwa [stepped])
      have alsoRunning : (cpu.refit change).halted = false := running
      rw [stepped] at alsoStepped
      exact executeFrom_fail enough alsoRunning alsoStepped
  | @step cpu consumed cycles after enough running stepped _ ih =>
      rw [executeFrom_step enough running stepped] at tolerates ⊢
      have alsoStepped := cpu.refit_step change (by rw [stepped]; exact tolerates.legal rfl)
      have alsoRunning : (cpu.refit change).halted = false := running
      rw [stepped] at alsoStepped
      rw [executeFrom_step enough alsoRunning alsoStepped, ih tolerates]

theorem refit_carryOut {operation : Operation} (kept : operation.configures = false)
    (tolerates : change.Tolerates (cpu.carryOut operation).1) :
    (cpu.refit change).carryOut operation =
      ((cpu.carryOut operation).1, (cpu.carryOut operation).2.refit change) := by
  cases operation with
  | configure config => exact absurd kept (by simp [Operation.configures])
  | step => simp only [carryOut, cpu.refit_step change tolerates]
  | execute budget =>
      simp only [carryOut, execute, cpu.refit_executeFrom change budget 0 tolerates]
  | reset => simp [carryOut, reset, refit, change.log_nil]
  | read _ | write _ _ | push _ | pull | pushWord _ | pullWord => simp [carryOut]
  | requestIrq | withdrawIrq | requestNmi | setRegisters _ | readBus _ | writeBus _ _
  | peekBus _ | resetBus | takeFault | senseLine => rfl

theorem refit_carryOutAll {operations : List Operation}
    (kept : ∀ operation ∈ operations, operation.configures = false)
    (tolerates : ∀ answer ∈ (cpu.carryOutAll operations).1, change.Tolerates answer) :
    (cpu.refit change).carryOutAll operations =
      ((cpu.carryOutAll operations).1, (cpu.carryOutAll operations).2.refit change) := by
  induction operations generalizing cpu with
  | nil => rfl
  | cons operation rest ih =>
      simp only [carryOutAll, Dialogue.run_cons, List.forall_mem_cons] at kept tolerates ⊢
      rw [refit_carryOut cpu change kept.1 tolerates.1]
      have finished := ih (cpu.carryOut operation).2 kept.2 tolerates.2
      simp only [carryOutAll] at finished
      rw [finished]

theorem after_config (count : Nat) : (cpu.after count).config = cpu.config := by
  induction count generalizing cpu with
  | zero => rfl
  | succ count ih => exact (ih cpu.step.2).trans cpu.step_config

theorem carryOut_config {operation : Operation} (kept : operation.configures = false) :
    (cpu.carryOut operation).2.config = cpu.config := by
  cases operation with
  | configure config => exact absurd kept (by simp [Operation.configures])
  | step => exact cpu.step_config
  | execute budget =>
      exact (congrArg Cpu.config (cpu.executeFrom_after budget 0)).trans (cpu.after_config _)
  | read address => exact (cpu.read_undisturbed address).config
  | write address value => exact (cpu.write_undisturbed address value).config
  | push value => exact (cpu.pushByte_undisturbed value).config
  | pull => exact cpu.pullByte_undisturbed.config
  | pushWord value => exact (cpu.pushWord_undisturbed value).config
  | pullWord => exact cpu.pullWord_undisturbed.config
  | reset | requestIrq | withdrawIrq | requestNmi | setRegisters _ | readBus _ | writeBus _ _
  | peekBus _ | resetBus | takeFault | senseLine => rfl

theorem starts_config (count : Nat) : ∀ started ∈ cpu.starts count,
    started.config = cpu.config := by
  induction count generalizing cpu with
  | zero => simp [starts]
  | succ count ih =>
      simp only [starts, List.forall_mem_cons, true_and]
      intro started member
      exact (ih cpu.step.2 started member).trans cpu.step_config

theorem startsIn_config {operations : List Operation}
    (kept : ∀ operation ∈ operations, operation.configures = false) :
    ∀ started ∈ cpu.startsIn operations, started.config = cpu.config := by
  induction operations generalizing cpu with
  | nil => simp [startsIn, Dialogue.gather]
  | cons operation rest ih =>
      rw [List.forall_mem_cons] at kept
      simp only [startsIn, Dialogue.gather, List.mem_append]
      rintro started (here | later)
      · exact cpu.starts_config _ started here
      · exact (ih (cpu.carryOut operation).2 kept.2 started later).trans
          (cpu.carryOut_config kept.1)

theorem carryOutAll_config {operations : List Operation}
    (kept : ∀ operation ∈ operations, operation.configures = false) :
    (cpu.carryOutAll operations).2.config = cpu.config := by
  induction operations generalizing cpu with
  | nil => rfl
  | cons operation rest ih =>
      rw [List.forall_mem_cons] at kept
      exact (ih (cpu.carryOut operation).2 kept.2).trans (cpu.carryOut_config kept.1)

/-- Two processors that differ in what they record and have recorded, and in nothing else, answer
alike and go on differing in nothing else. -/
theorem carryOutAll_unrecorded {left right : Cpu β}
    (same : left.refit .unrecorded = right.refit .unrecorded) {operations : List Operation}
    (kept : ∀ operation ∈ operations, operation.configures = false) :
    (left.carryOutAll operations).1 = (right.carryOutAll operations).1 ∧
      (left.carryOutAll operations).2.refit .unrecorded =
        (right.carryOutAll operations).2.refit .unrecorded := by
  have leftRuns := left.refit_carryOutAll .unrecorded kept fun answer _ =>
    Refit.unrecorded_tolerates answer
  have rightRuns := right.refit_carryOutAll .unrecorded kept fun answer _ =>
    Refit.unrecorded_tolerates answer
  rw [same] at leftRuns
  exact Prod.mk.inj (leftRuns.symm.trans rightRuns)

structure SettingsConfined (operations : List Operation) : Prop where
  answers : ((cpu.recording false).carryOutAll operations).1 =
    ((cpu.recording true).carryOutAll operations).1
  unlogged : ((cpu.recording false).carryOutAll operations).2 =
    { (((cpu.recording true).carryOutAll operations).2.recording false) with
      accesses := ((cpu.recording false).carryOutAll operations).2.accesses }
  silent : ∀ started ∈ (cpu.recording false).startsIn operations, started.step.2.accesses = []
  lenient : ((cpu.under .halt).carryOutAll operations).1.all (!·.reportsIllegal) = true →
    (cpu.under .skip).carryOutAll operations =
      (((cpu.under .halt).carryOutAll operations).1,
        ((cpu.under .halt).carryOutAll operations).2.under .skip)

/-- Whether accesses are recorded shows in the log alone, and what becomes of illegal opcodes
shows nowhere as long as none is reported. -/
theorem settings_confined {operations : List Operation}
    (kept : ∀ operation ∈ operations, operation.configures = false) :
    cpu.SettingsConfined operations := by
  have start : (cpu.recording false).refit .unrecorded = (cpu.recording true).refit .unrecorded :=
    rfl
  obtain ⟨answers, finished⟩ := carryOutAll_unrecorded start kept
  constructor
  · exact answers
  · exact eq_of_unrecorded finished (congrArg CpuConfig.recordAccesses (carryOutAll_config _ kept))
  · intro started member
    rw [step_accesses, startsIn_config _ kept started member]
    rfl
  · intro legal
    rw [List.all_eq_true] at legal
    refine (cpu.under .halt).refit_carryOutAll .lenient kept fun answer member => ?_
    exact .inr ⟨fun _ => rfl, by simpa using legal answer member⟩

end

def storing : Cpu FlatMemory :=
  { memory := FlatMemory.zeroed.load 0 [0x85, 0x10] }

def interrupted : List Operation :=
  [.step, .requestNmi, .step, .execute 9]

theorem storing_settings_confined :
    ((storing.recording true).carryOutAll [.step]).2.accesses = [⟨.write, 0x0010, 0⟩] ∧
      ((storing.recording false).carryOutAll interrupted).2.accesses = [] ∧
      ((storing.recording true).carryOutAll interrupted).2.accesses.length = 3 ∧
      (storing.under .skip).carryOutAll interrupted =
        (((storing.under .halt).carryOutAll interrupted).1,
          ((storing.under .halt).carryOutAll interrupted).2.under .skip) := by
  have confined : storing.SettingsConfined interrupted :=
    settings_confined storing (by simp [interrupted, Operation.configures])
  exact ⟨by decide +kernel, by decide +kernel, by decide +kernel,
    confined.lenient (by decide +kernel)⟩

end Cpu

end Nmos6502
