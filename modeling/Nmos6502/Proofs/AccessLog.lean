import Nmos6502.Cpu.Step

/-!
The log of data accesses against memory. Replaying a log applies its writes in order, and a
log is truthful if each of its reads carries the byte that memory held when its turn came.
Whatever the processor does to memory it does through its log.
-/

namespace Nmos6502

namespace Access

variable {β : Type} [Bus β]

def isRead (access : Access) : Bool :=
  access.kind == .read

def isWrite (access : Access) : Bool :=
  access.kind == .write

def apply (memory : β) (access : Access) : β :=
  match access.kind with
  | .read => memory
  | .write => Bus.write memory access.address access.value

def replay (memory : β) (log : List Access) : β :=
  log.foldl apply memory

def Truthful (memory : β) : List Access → Prop
  | [] => True
  | access :: rest =>
      (access.kind = .read → access.value = Bus.read memory access.address) ∧
        Truthful (apply memory access) rest

theorem replay_append (memory : β) (first rest : List Access) :
    replay memory (first ++ rest) = replay (replay memory first) rest :=
  List.foldl_append

theorem truthful_append (memory : β) (first rest : List Access) :
    Truthful memory (first ++ rest) ↔
      Truthful memory first ∧ Truthful (replay memory first) rest := by
  induction first generalizing memory with
  | nil => simp [Truthful, replay]
  | cons access first ih =>
      simp only [List.cons_append, Truthful, ih, and_assoc]
      rfl

theorem Truthful.read_value {memory : β} {log earlier later : List Access} {access : Access}
    (truthful : Truthful memory log) (split : log = earlier ++ access :: later)
    (read : access.kind = .read) :
    access.value = Bus.read (replay memory earlier) access.address := by
  rw [split, truthful_append] at truthful
  exact truthful.2.1 read

end Access

namespace Cpu

section

variable {β : Type}

theorem record_memory (cpu : Cpu β) (access : Access) :
    (cpu.record access).memory = cpu.memory := by
  simp only [record]
  split <;> rfl

theorem record_registers (cpu : Cpu β) (access : Access) :
    (cpu.record access).registers = cpu.registers := by
  simp only [record]
  split <;> rfl

theorem record_config (cpu : Cpu β) (access : Access) :
    (cpu.record access).config = cpu.config := by
  simp only [record]
  split <;> rfl

theorem record_stackWraps (cpu : Cpu β) (access : Access) :
    (cpu.record access).stackWraps = cpu.stackWraps := by
  simp only [record]
  split <;> rfl

theorem record_lastStackWrap (cpu : Cpu β) (access : Access) :
    (cpu.record access).lastStackWrap = cpu.lastStackWrap := by
  simp only [record]
  split <;> rfl

theorem record_accesses (cpu : Cpu β) (access : Access) :
    (cpu.record access).accesses =
      cpu.accesses ++ if cpu.config.recordAccesses then [access] else [] := by
  simp only [record]
  split <;> simp

end

variable {β : Type} [Bus β]

structure Logged (before after : Cpu β) (log : List Access) : Prop where
  memory : after.memory = Access.replay before.memory log
  truthful : Access.Truthful before.memory log
  accesses : after.accesses =
    before.accesses ++ if before.config.recordAccesses then log else []
  config : after.config = before.config

theorem Logged.silent {before after : Cpu β} (memory : after.memory = before.memory)
    (accesses : after.accesses = before.accesses) (config : after.config = before.config) :
    Logged before after [] :=
  ⟨memory, trivial, by simp [accesses], config⟩

theorem Logged.trans {before middle after : Cpu β} {first rest : List Access}
    (start : Logged before middle first) (finish : Logged middle after rest) :
    Logged before after (first ++ rest) := by
  constructor
  · rw [Access.replay_append, ← start.memory]
    exact finish.memory
  · rw [Access.truthful_append, ← start.memory]
    exact ⟨start.truthful, finish.truthful⟩
  · rw [finish.accesses, start.accesses, start.config]
    split <;> simp
  · exact finish.config.trans start.config

theorem Logged.thenSilent {before middle after : Cpu β} {log : List Access}
    (start : Logged before middle log) (memory : after.memory = middle.memory)
    (accesses : after.accesses = middle.accesses) (config : after.config = middle.config) :
    Logged before after log := by
  have whole := start.trans (Logged.silent memory accesses config)
  rwa [List.append_nil] at whole

theorem Logged.afterSilent {before middle after : Cpu β} {log : List Access}
    (finish : Logged middle after log) (memory : middle.memory = before.memory)
    (accesses : middle.accesses = before.accesses) (config : middle.config = before.config) :
    Logged before after log :=
  (Logged.silent memory accesses config).trans finish

theorem Logged.thenRegisters {before after : Cpu β} {log : List Access}
    (start : Logged before after log) (update : Registers → Registers) :
    Logged before (after.mapRegisters update) log :=
  start.thenSilent rfl rfl rfl

theorem Logged.afterRegisters {before after : Cpu β} {log : List Access}
    {update : Registers → Registers} (finish : Logged (before.mapRegisters update) after log) :
    Logged before after log :=
  finish.afterSilent rfl rfl rfl

theorem mapRegisters_logged (cpu : Cpu β) (update : Registers → Registers) :
    Logged cpu (cpu.mapRegisters update) [] :=
  .silent rfl rfl rfl

theorem read_logged (cpu : Cpu β) (address : UInt16) :
    Logged cpu (cpu.read address).2 [⟨.read, address, Bus.read cpu.memory address⟩] :=
  ⟨record_memory _ _, ⟨fun _ => rfl, trivial⟩, record_accesses _ _, record_config _ _⟩

theorem write_logged (cpu : Cpu β) (address : UInt16) (value : UInt8) :
    Logged cpu (cpu.write address value) [⟨.write, address, value⟩] :=
  ⟨record_memory _ _, ⟨nofun, trivial⟩, record_accesses _ _, record_config _ _⟩

end Cpu

/-! The accesses of the operand of an instruction. -/

namespace Place

variable {β : Type} [Bus β]

def value (registers : Registers) (memory : β) : Place → UInt8
  | nowhere => 0
  | accumulator => registers.a
  | constant value => value
  | cell address => Bus.read memory address

def reads (memory : β) : Place → List Access
  | cell address => [⟨.read, address, Bus.read memory address⟩]
  | nowhere | accumulator | constant _ => []

def writes (value : UInt8) : Place → List Access
  | cell address => [⟨.write, address, value⟩]
  | nowhere | accumulator | constant _ => []

end Place

namespace Cpu

variable {β : Type} [Bus β]

theorem load_value (cpu : Cpu β) (place : Place) :
    (cpu.load place).1 = place.value cpu.registers cpu.memory := by
  cases place <;> rfl

theorem load_registers (cpu : Cpu β) (place : Place) :
    (cpu.load place).2.registers = cpu.registers := by
  cases place with
  | cell address => exact record_registers _ _
  | nowhere | accumulator | constant value => rfl

theorem load_logged (cpu : Cpu β) (place : Place) :
    Logged cpu (cpu.load place).2 (place.reads cpu.memory) := by
  cases place with
  | cell address => exact read_logged cpu address
  | nowhere | accumulator | constant value => exact .silent rfl rfl rfl

theorem store_logged (cpu : Cpu β) (place : Place) (value : UInt8) :
    Logged cpu (cpu.store place value) (place.writes value) := by
  cases place with
  | cell address => exact write_logged cpu address value
  | nowhere | accumulator | constant value => exact .silent rfl rfl rfl

end Cpu

end Nmos6502
