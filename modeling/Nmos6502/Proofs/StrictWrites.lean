import Nmos6502.Device.Peripheral
import Nmos6502.Proofs.Blame
import Nmos6502.Proofs.MappedWrite

/-!
Strict writes against lenient ones. Both drop the same writes; the strict memory keeps the
first of them as a fault, which the step that made it reports.
-/

namespace Nmos6502

/-- No write to a device makes it writable or takes that from it. -/
def Device.Steady (δ : Type) [Device δ] : Prop :=
  ∀ (device : δ) offset value,
    Device.isWritable (Device.write device offset value) = Device.isWritable device

theorem Peripheral.steady : Device.Steady Peripheral := by
  intro device offset value
  cases device <;> rfl

namespace MappedMemory

section

variable {δ : Type}

def lenient (memory : MappedMemory δ) : MappedMemory δ :=
  { memory with strictWrites := false, fault := none }

theorem lenient_raise (memory : MappedMemory δ) (fault : BusFault) :
    (memory.raise fault).lenient = memory.lenient := by
  simp only [raise]
  split <;> rfl

theorem raise_strictWrites (memory : MappedMemory δ) (fault : BusFault) :
    (memory.raise fault).strictWrites = memory.strictWrites := by
  simp only [raise]
  split <;> rfl

theorem raise_fault {memory : MappedMemory δ} (strict : memory.strictWrites = true)
    (fault : BusFault) : (memory.raise fault).fault = memory.fault.or (some fault) := by
  rw [raise, if_pos strict]

variable [Device δ]

def writability (memory : MappedMemory δ) (address : UInt16) : Option Bool :=
  (memory.find? address).map fun mapping => Device.isWritable mapping.device

def refusal (memory : MappedMemory δ) (access : Access) : Option BusFault :=
  match access.kind, memory.writability access.address with
  | .write, none => some (.unmapped access.address)
  | .write, some false => some (.readOnlyWrite access.address access.value)
  | _, _ => none

theorem refusal_isSome_iff (memory : MappedMemory δ) (access : Access) :
    (memory.refusal access).isSome = true ↔
      access.kind = .write ∧ memory.drops access.address = true := by
  rcases access with ⟨_ | _, address, value⟩
  · simp [refusal]
  · rcases found : memory.find? address with _ | mapping
    · simp [refusal, drops, writability, found]
    · rcases writable : Device.isWritable mapping.device with _ | _ <;>
        simp [refusal, drops, writability, found, writable]

theorem lenient_write (memory : MappedMemory δ) (address : UInt16) (value : UInt8) :
    memory.lenient.write address value = (memory.write address value).lenient := by
  have find : memory.lenient.find? address = memory.find? address := rfl
  simp only [write, find]
  split
  · split
    · rfl
    · exact (memory.lenient_raise _).symm
  · exact (memory.lenient_raise _).symm

def Relaxes (strict relaxed : MappedMemory δ) : Prop :=
  relaxed = strict.lenient

theorem mirrors_relaxes : Bus.Mirrors (Relaxes : MappedMemory δ → MappedMemory δ → Prop) where
  read := by
    rintro strict _ rfl address
    rfl
  write := by
    rintro strict _ rfl address value
    exact strict.lenient_write address value
  interruptLine := by
    rintro strict _ rfl
    rfl

theorem writability_writeDevice (steady : Device.Steady δ) (target : UInt16) (value : UInt8)
    (mappings : List (Mapping δ)) (address : UInt16) :
    ((writeDevice target value mappings).find? (·.contains address)).map
        (Device.isWritable ·.device) =
      (mappings.find? (·.contains address)).map (Device.isWritable ·.device) := by
  induction mappings with
  | nil => rfl
  | cons mapping rest ih =>
      simp only [writeDevice]
      split
      · -- The device that takes the write still answers for the same addresses.
        have moved : Mapping.contains { mapping with
            device := Device.write mapping.device (mapping.offset target) value } address =
            mapping.contains address := rfl
        rw [List.find?_cons, List.find?_cons, moved]
        split
        · exact congrArg some (steady mapping.device _ value)
        · rfl
      · rw [List.find?_cons, List.find?_cons]
        split
        · rfl
        · exact ih

theorem writability_write (steady : Device.Steady δ) (memory : MappedMemory δ)
    (target : UInt16) (value : UInt8) :
    (memory.write target value).writability = memory.writability := by
  funext address
  simp only [write]
  split
  · split
    · exact writability_writeDevice steady target value memory.mappings address
    · simp only [writability, find?, raise_mappings]
  · simp only [writability, find?, raise_mappings]

theorem refusal_write (steady : Device.Steady δ) (memory : MappedMemory δ) (target : UInt16)
    (value : UInt8) : (memory.write target value).refusal = memory.refusal := by
  funext access
  rw [refusal, refusal, writability_write steady]

theorem strictWrites_write (memory : MappedMemory δ) (address : UInt16) (value : UInt8) :
    (memory.write address value).strictWrites = memory.strictWrites := by
  simp only [write]
  split
  · split
    · rfl
    · exact memory.raise_strictWrites _
  · exact memory.raise_strictWrites _

theorem fault_write {memory : MappedMemory δ} (strict : memory.strictWrites = true)
    (address : UInt16) (value : UInt8) :
    (memory.write address value).fault =
      memory.fault.or (memory.refusal ⟨.write, address, value⟩) := by
  rcases found : memory.find? address with _ | mapping
  · simp [write, found, raise_fault strict, refusal, writability]
  · rcases writable : Device.isWritable mapping.device with _ | _ <;>
      simp [write, found, writable, raise_fault strict, refusal, writability]

theorem strictWrites_replay (memory : MappedMemory δ) (log : List Access) :
    (Access.replay memory log).strictWrites = memory.strictWrites := by
  induction log generalizing memory with
  | nil => rfl
  | cons access rest ih =>
      refine (ih (Access.apply memory access)).trans ?_
      simp only [Access.apply]
      split
      · rfl
      · exact memory.strictWrites_write access.address access.value

/-- Over a log strict writes keep the fault that comes first. -/
theorem fault_replay (steady : Device.Steady δ) {memory : MappedMemory δ}
    (strict : memory.strictWrites = true) (log : List Access) :
    (Access.replay memory log).fault = memory.fault.or (log.findSome? memory.refusal) := by
  induction log generalizing memory with
  | nil => simp [Access.replay]
  | cons access rest ih =>
      rcases access with ⟨_ | _, address, value⟩
      · exact ih strict
      · have stillStrict := (memory.strictWrites_write address value).trans strict
        have kept := ih stillStrict
        rw [fault_write strict, refusal_write steady] at kept
        rw [List.findSome?_cons]
        refine kept.trans ?_
        rcases memory.refusal ⟨.write, address, value⟩ with _ | fault
        · rw [Option.or_none]
        · rw [Option.or_assoc, Option.some_or]

theorem fault_replay_lenient {memory : MappedMemory δ} (log : List Access) :
    (Access.replay memory.lenient log).fault = none := by
  induction log generalizing memory with
  | nil => rfl
  | cons access rest ih =>
      rcases access with ⟨_ | _, address, value⟩
      · exact ih
      · have written : Access.apply memory.lenient ⟨.write, address, value⟩ =
            (memory.write address value).lenient :=
          memory.lenient_write address value
        rw [Access.replay, List.foldl_cons, written]
        exact ih

end

end MappedMemory

/-- What reaches a processor over its pins: the clock, the interrupt lines and the reset. -/
def Operation.isPin : Operation → Bool
  | step | requestIrq | withdrawIrq | requestNmi | reset => true
  | _ => false

namespace Cpu

section

variable {δ : Type}

def lenient (cpu : Cpu (MappedMemory δ)) : Cpu (MappedMemory δ) :=
  cpu.onto cpu.memory.lenient

theorem alike_lenient (cpu : Cpu (MappedMemory δ)) :
    Alike MappedMemory.Relaxes Eq cpu cpu.lenient :=
  .of_onto rfl

variable [Device δ]

theorem settledMemory_lenient (memory : MappedMemory δ) :
    settledMemory memory.lenient = (settledMemory memory).lenient := by
  simp only [settledMemory]
  split <;> split <;> rfl

theorem settledMemory_fault (memory : MappedMemory δ) : (settledMemory memory).fault = none := by
  simp only [settledMemory]
  split
  · rfl
  · rename_i clear
    exact Option.not_isSome_iff_eq_none.mp clear

theorem settledMemory_strictWrites (memory : MappedMemory δ) :
    (settledMemory memory).strictWrites = memory.strictWrites := by
  simp only [settledMemory]
  split <;> rfl

/-- Whether a step reports a fault or not, it leaves the same behind. -/
theorem step_lenient (cpu : Cpu (MappedMemory δ)) : cpu.lenient.step.2 = cpu.step.2.lenient := by
  have stepped : Alike MappedMemory.Relaxes Eq cpu.step.2 cpu.lenient.step.2 := by
    apply cpu.alike_lenient.step_ends MappedMemory.mirrors_relaxes (fun _ => rfl)
      fun first second => Alike MappedMemory.Relaxes Eq first.2 second.2
    · intro left right alike cycles
      have relaxes : MappedMemory.Relaxes (settledMemory left.memory)
          (settledMemory right.memory) := by
        rw [MappedMemory.Relaxes, alike.memory, settledMemory_lenient]
      rw [settle_eq, settle_eq]
      exact { alike with memory := relaxes }
    · intro left right alike result
      exact alike
  exact stepped.onto_eq.symm.trans (congrArg cpu.step.2.onto stepped.memory)

structure Strict (cpu : Cpu (MappedMemory δ)) : Prop where
  strictWrites : cpu.memory.strictWrites = true
  clear : cpu.memory.fault = none

theorem Strict.step {cpu : Cpu (MappedMemory δ)} (strict : Strict cpu) : Strict cpu.step.2 := by
  have memory := (cpu.step_blames strict.clear).2
  constructor
  · rw [memory, settledMemory_strictWrites, MappedMemory.strictWrites_replay, strict.strictWrites]
  · rw [memory, settledMemory_fault]

theorem Strict.carryOut {cpu : Cpu (MappedMemory δ)} (strict : Strict cpu) {operation : Operation}
    (pin : operation.isPin = true) :
    Strict (cpu.carryOut operation).2 ∧
      (cpu.lenient.carryOut operation).2 = (cpu.carryOut operation).2.lenient := by
  cases operation with
  | step => exact ⟨strict.step, cpu.step_lenient⟩
  | requestIrq | withdrawIrq | requestNmi | reset => exact ⟨⟨strict.1, strict.2⟩, rfl⟩
  | _ => simp [Operation.isPin] at pin

theorem Strict.carryOutAll {cpu : Cpu (MappedMemory δ)} (strict : Strict cpu)
    {operations : List Operation} (pins : ∀ operation ∈ operations, operation.isPin = true) :
    Strict (cpu.carryOutAll operations).2 ∧
      (cpu.lenient.carryOutAll operations).2 = (cpu.carryOutAll operations).2.lenient := by
  induction operations generalizing cpu with
  | nil => exact ⟨strict, rfl⟩
  | cons operation rest ih =>
      rw [List.forall_mem_cons] at pins
      obtain ⟨stillStrict, relaxed⟩ := strict.carryOut pins.1
      have continued := ih stillStrict pins.2
      simp only [Cpu.carryOutAll, Dialogue.run_cons, relaxed] at continued ⊢
      exact continued

structure OnlyReports (strict relaxed : Cpu (MappedMemory δ)) : Prop where
  same : relaxed = strict.lenient
  clear : strict.memory.fault = none
  logged : strict.config.recordAccesses = true → strict.step.2.accesses = strict.stepAccesses
  blamed : strict.step.1 =
    blame relaxed.step.1 (strict.stepAccesses.findSome? strict.memory.refusal)
  fails_iff : (∃ fault, strict.step.1 = .error (.bus fault)) ↔
    ∃ access ∈ strict.stepAccesses,
      access.kind = .write ∧ strict.memory.drops access.address = true
  lenient_never : ∀ fault, relaxed.step.1 ≠ .error (.bus fault)

theorem lenient_step_result (cpu : Cpu (MappedMemory δ)) :
    cpu.lenient.step.1 = cpu.lenient.verdict := by
  have blamed := (cpu.lenient.step_blames rfl).1
  have clear : Bus.fault (Access.replay cpu.lenient.memory cpu.lenient.stepAccesses) = none :=
    MappedMemory.fault_replay_lenient _
  rw [blamed, clear, blame]

theorem Strict.onlyReports (steady : Device.Steady δ) {cpu : Cpu (MappedMemory δ)}
    (strict : Strict cpu) : OnlyReports cpu cpu.lenient := by
  have sameVerdict := cpu.alike_lenient.verdict MappedMemory.mirrors_relaxes
  have fault : Bus.fault (Access.replay cpu.memory cpu.stepAccesses) =
      cpu.stepAccesses.findSome? cpu.memory.refusal := by
    have kept := MappedMemory.fault_replay steady strict.strictWrites cpu.stepAccesses
    rwa [strict.clear, Option.none_or] at kept
  have blamed := (cpu.step_blames strict.clear).1
  rw [fault, sameVerdict, ← lenient_step_result] at blamed
  have never : ∀ fault, cpu.lenient.step.1 ≠ .error (.bus fault) := by
    intro fault
    rw [lenient_step_result]
    exact verdict_ne_bus _ fault
  refine ⟨rfl, strict.clear, step_accesses_recording, blamed, ?_, never⟩
  rw [blamed, exists_blame_iff never, List.findSome?_isSome_iff]
  simp only [MappedMemory.refusal_isSome_iff]

/-- Whatever the clock and the interrupt lines do, strict writes only ever add a report, made by
the step whose write was dropped. -/
theorem strict_writes_only_report (steady : Device.Steady δ) (cpu : Cpu (MappedMemory δ))
    (strict : cpu.memory.strictWrites = true) (clear : cpu.memory.fault = none)
    (operations : List Operation) (pins : ∀ operation ∈ operations, operation.isPin = true) :
    OnlyReports (cpu.carryOutAll operations).2 (cpu.lenient.carryOutAll operations).2 := by
  obtain ⟨reached, relaxed⟩ := Strict.carryOutAll ⟨strict, clear⟩ pins
  rw [relaxed]
  exact reached.onlyReports steady

end

def stackOnRom : Cpu (MappedMemory Peripheral) :=
  { memory :=
      { mappings := [⟨0x0100, 0x0110, .rom (Rom.filled 0x10 0xEA)⟩]
        strictWrites := true } }

theorem stackOnRom_only_reports :
    OnlyReports (stackOnRom.carryOutAll [.requestNmi]).2
        (stackOnRom.lenient.carryOutAll [.requestNmi]).2 ∧
      (stackOnRom.carryOutAll [.requestNmi]).2.step.1 =
        .error (.bus (.readOnlyWrite 0x0100 0x00)) := by
  have only := strict_writes_only_report Peripheral.steady stackOnRom rfl rfl [.requestNmi]
    (by simp [Operation.isPin])
  refine ⟨only, ?_⟩
  rw [only.blamed]
  rfl

end Cpu

end Nmos6502
