import Nmos6502.Proofs.FlatLog
import Nmos6502.Proofs.StackWraps

/-!
The stack page against a stack of bytes that has no bounds. The page is a ring: as long as no
more than 256 bytes are outstanding, the two answer alike, and a stack pointer that comes back to
where it started has wrapped below zero as often as above 0xFF.
-/

namespace Nmos6502

inductive StackUse
  | push (value : UInt8)
  | pull
  | pushWord (value : UInt16)
  | pullWord

namespace StackUse

def operation : StackUse → Operation
  | push value => .push value
  | pull => .pull
  | pushWord value => .pushWord value
  | pullWord => .pullWord

def taken : StackUse → Nat
  | push _ | pushWord _ => 0
  | pull => 1
  | pullWord => 2

def added : StackUse → Nat
  | push _ => 1
  | pushWord _ => 2
  | pull | pullWord => 0

def heightAfter (use : StackUse) (height : Nat) : Nat :=
  height - use.taken + use.added

/-- Nothing is pulled that was not pushed, nothing is left in the end, and all that is outstanding
on the way has room on the stack page. -/
def balanced (height : Nat) : List StackUse → Bool
  | [] => height == 0
  | use :: rest =>
      use.taken ≤ height && use.heightAfter height ≤ 256 && balanced (use.heightAfter height) rest

/-- How a list of bytes, the top first, answers a use of it as a stack, and what becomes of it. The
low byte of a word lies above the high one. -/
inductive Acts : StackUse → List UInt8 → Answer → List UInt8 → Prop
  | push (value stack) : Acts (push value) stack .done (value :: stack)
  | pull (value stack) : Acts pull (value :: stack) (.byte value) stack
  | pushWord (value stack) :
      Acts (pushWord value) stack .done (lowByte value :: highByte value :: stack)
  | pullWord (value stack) :
      Acts pullWord (lowByte value :: highByte value :: stack) (.word value) stack

inductive LastInFirstOut : List UInt8 → List StackUse → List Answer → List UInt8 → Prop
  | nil (stack) : LastInFirstOut stack [] [] stack
  | cons {use rest answer answers stack next final} (acts : Acts use stack answer next)
      (later : LastInFirstOut next rest answers final) :
      LastInFirstOut stack (use :: rest) (answer :: answers) final

end StackUse

/-- The bytes of the list lie on the stack page, the first of them right above the pointer. -/
def FlatMemory.Stacked (memory : FlatMemory) (stackPointer : UInt8) : List UInt8 → Prop
  | [] => True
  | byte :: rest =>
      memory.read (stackAddress (stackPointer + 1)) = byte ∧ memory.Stacked (stackPointer + 1) rest

theorem FlatMemory.Stacked.write {memory : FlatMemory} {stackPointer : UInt8}
    {stack : List UInt8} (stacked : memory.Stacked stackPointer stack) (target value : UInt8)
    (elsewhere : ∀ offset < stack.length, stackPointer + 1 + UInt8.ofNat offset ≠ target) :
    (memory.write (stackAddress target) value).Stacked stackPointer stack := by
  induction stack generalizing stackPointer with
  | nil => trivial
  | cons byte rest ih =>
      obtain ⟨top, below⟩ := stacked
      refine ⟨?_, ih below fun offset less => ?_⟩
      · rw [FlatMemory.read_write, if_neg, top]
        intro same
        exact elsewhere 0 (by simp) (by simpa using (stackAddress_injective same).symm)
      · have different := elsewhere (offset + 1) (by simpa using less)
        rw [UInt8.ofNat_add] at different
        grind

/-- A push finds room below all that is outstanding, unless that is the whole page. -/
theorem FlatMemory.Stacked.push {memory : FlatMemory} {stackPointer : UInt8}
    {stack : List UInt8} (stacked : memory.Stacked stackPointer stack) (value : UInt8)
    (room : stack.length < 256) :
    (memory.write (stackAddress stackPointer) value).Stacked (stackPointer - 1)
      (value :: stack) := by
  have moved : stackPointer - 1 + 1 = stackPointer := UInt8.sub_add_cancel _ _
  rw [FlatMemory.Stacked, moved]
  refine ⟨by simp, stacked.write stackPointer value fun offset less same => ?_⟩
  have equal := congrArg UInt8.toNat same
  have bound := stackPointer.toNat_lt
  simp only [UInt8.toNat_add, UInt8.toNat_ofNat', UInt8.toNat_one] at equal
  omega

theorem WrapKind.length_eq_counts (wraps : List WrapKind) :
    wraps.length = wraps.count .overflow + wraps.count .underflow := by
  induction wraps with
  | nil => rfl
  | cons kind rest ih =>
      cases kind <;> grind

namespace Cpu

def wrapNoted {β : Type} [Bus β] (cpu : Cpu β) (operation : Operation) : List WrapKind :=
  let after := (cpu.carryOut operation).2
  if cpu.stackWraps < after.stackWraps then (after.lastStackWrap.map StackWrap.kind).toList
  else []

structure Confined (before after : Cpu FlatMemory) : Prop where
  registers : after.registers =
    { before.registers with stackPointer := after.registers.stackPointer }
  memory : ∀ address, address < 0x0100 ∨ 0x01FF < address →
    after.memory.read address = before.memory.read address

theorem Confined.refl (cpu : Cpu FlatMemory) : Confined cpu cpu :=
  ⟨rfl, fun _ _ => rfl⟩

theorem Confined.trans {before middle after : Cpu FlatMemory} (first : Confined before middle)
    (second : Confined middle after) : Confined before after where
  registers := by rw [second.registers, first.registers]
  memory address outside := (second.memory address outside).trans (first.memory address outside)

structure Wraps {β : Type} (kind : WrapKind) (count : Nat) (before after : Cpu β) : Prop where
  stackWraps : after.stackWraps = before.stackWraps + count
  lastStackWrap : after.lastStackWrap.map StackWrap.kind =
    if count = 0 then before.lastStackWrap.map StackWrap.kind else some kind

theorem Wraps.trans {β : Type} {kind : WrapKind} {first second : Nat} {before middle after : Cpu β}
    (early : Wraps kind first before middle) (late : Wraps kind second middle after) :
    Wraps kind (first + second) before after where
  stackWraps := by rw [late.stackWraps, early.stackWraps, Nat.add_assoc]
  lastStackWrap := by
    rw [late.lastStackWrap, early.lastStackWrap]
    grind

theorem NotesWrap.wraps {β : Type} {kind : WrapKind} {count : Nat} {before after : Cpu β}
    (notes : NotesWrap kind count before after) :
    Wraps kind (if kind.room before.registers.stackPointer < count then 1 else 0) before after where
  stackWraps := notes.stackWraps
  lastStackWrap := by
    rw [notes.lastStackWrap]
    split <;> rfl

theorem pushByte_wraps {β : Type} [Bus β] (cpu : Cpu β) (value : UInt8) :
    Wraps .overflow (if cpu.registers.stackPointer = 0x00 then 1 else 0) cpu
      (cpu.pushByte value) := by
  have wraps := (cpu.pushByte_moves value).wraps
  simp only [WrapKind.overflow_room_lt_one] at wraps
  exact wraps

theorem pullByte_wraps {β : Type} [Bus β] (cpu : Cpu β) :
    Wraps .underflow (if cpu.registers.stackPointer = 0xFF then 1 else 0) cpu cpu.pullByte.2 := by
  have wraps := cpu.pullByte_moves.wraps
  simp only [WrapKind.underflow_room_lt_one] at wraps
  exact wraps

theorem pushByte_confined (cpu : Cpu FlatMemory) (value : UInt8) :
    Confined cpu (cpu.pushByte value) where
  registers := by rw [pushByte_registers]
  memory address outside := by
    rw [(cpu.pushByte_logged value).memory]
    exact Access.read_replay_pushes_outside cpu.memory _ _ outside

theorem pullByte_confined (cpu : Cpu FlatMemory) : Confined cpu cpu.pullByte.2 where
  registers := by rw [pullByte_registers]
  memory _ _ := by rw [pullByte_memory]

/-- How often the stack pointer has wrapped below zero on balance when so many bytes, of 256 at
most, are outstanding. -/
def crossed (base : UInt8) (height : Nat) : Nat :=
  if base.toNat < height then 1 else 0

theorem crossed_succ (base : UInt8) {height : Nat} (room : height < 256) :
    crossed base (height + 1) =
      crossed base height + if base - UInt8.ofNat height = 0x00 then 1 else 0 := by
  have bound := base.toNat_lt
  have atZero : base - UInt8.ofNat height = 0x00 ↔ base.toNat = height := by
    rw [← UInt8.toNat_inj]
    simp only [UInt8.toNat_sub, UInt8.toNat_ofNat', UInt8.toNat_zero]
    omega
  simp only [crossed, atZero]
  grind

structure Carries (base : UInt8) (stack : List UInt8) (cpu : Cpu FlatMemory) : Prop where
  stackPointer : cpu.registers.stackPointer = base - UInt8.ofNat stack.length
  stacked : cpu.memory.Stacked cpu.registers.stackPointer stack

variable {base : UInt8} {stack : List UInt8} {cpu : Cpu FlatMemory} {value : UInt8}

theorem Carries.pushByte (carries : Carries base stack cpu) (room : stack.length < 256)
    (value : UInt8) : Carries base (value :: stack) (cpu.pushByte value) := by
  have memory : (cpu.pushByte value).memory =
      cpu.memory.write (stackAddress cpu.registers.stackPointer) value :=
    (cpu.pushByte_logged value).memory
  constructor
  · rw [pushByte_registers, carries.stackPointer, List.length_cons, UInt8.ofNat_add]
    grind
  · rw [memory, pushByte_registers]
    exact carries.stacked.push value room

theorem Carries.pullByte (carries : Carries base (value :: stack) cpu) :
    cpu.pullByte.1 = value ∧ Carries base stack cpu.pullByte.2 := by
  obtain ⟨stackPointer, top, below⟩ := carries
  refine ⟨cpu.pullByte_value.trans top, ?_, ?_⟩
  · rw [pullByte_registers, stackPointer, List.length_cons, UInt8.ofNat_add]
    grind
  · rw [pullByte_memory, pullByte_registers]
    exact below

structure Keeps (base : UInt8) (stack next : List UInt8) (wraps : List WrapKind)
    (before after : Cpu FlatMemory) : Prop where
  carries : Carries base next after
  confined : Confined before after
  stackWraps : after.stackWraps = before.stackWraps + wraps.length
  crossed : crossed base next.length + wraps.count .underflow =
    crossed base stack.length + wraps.count .overflow

theorem Keeps.trans {middle next : List UInt8} {early late : List WrapKind}
    {before between after : Cpu FlatMemory} (first : Keeps base stack middle early before between)
    (second : Keeps base middle next late between after) :
    Keeps base stack next (early ++ late) before after where
  carries := second.carries
  confined := first.confined.trans second.confined
  stackWraps := by
    rw [second.stackWraps, first.stackWraps, List.length_append, Nat.add_assoc]
  crossed := by
    have earlier := first.crossed
    have later := second.crossed
    rw [List.count_append, List.count_append]
    omega

/-- A move of the stack pointer in one direction, during which all wraps are of one kind. -/
structure Moves (base : UInt8) (kind : WrapKind) (count : Nat) (stack next : List UInt8)
    (before after : Cpu FlatMemory) : Prop where
  wraps : Wraps kind count before after
  keeps : Keeps base stack next (List.replicate count kind) before after

theorem Moves.trans {kind : WrapKind} {early late : Nat} {middle next : List UInt8}
    {before between after : Cpu FlatMemory}
    (first : Moves base kind early stack middle before between)
    (second : Moves base kind late middle next between after) :
    Moves base kind (early + late) stack next before after where
  wraps := first.wraps.trans second.wraps
  keeps := by
    rw [← List.replicate_append_replicate]
    exact first.keeps.trans second.keeps

theorem Carries.push_moves (carries : Carries base stack cpu) (room : stack.length < 256)
    (value : UInt8) :
    ∃ count, Moves base .overflow count stack (value :: stack) cpu (cpu.pushByte value) := by
  have wraps := cpu.pushByte_wraps value
  refine ⟨_, wraps, carries.pushByte room value, cpu.pushByte_confined value, ?_, ?_⟩
  · rw [wraps.stackWraps, List.length_replicate]
  · rw [List.length_cons, crossed_succ base room, ← carries.stackPointer]
    simp [List.count_replicate]

theorem Carries.pull_moves (carries : Carries base (value :: stack) cpu)
    (room : stack.length < 256) :
    ∃ count, Moves base .underflow count (value :: stack) stack cpu cpu.pullByte.2 := by
  have wraps := cpu.pullByte_wraps
  have atTop : cpu.registers.stackPointer = 0xFF ↔ base - UInt8.ofNat stack.length = 0x00 := by
    rw [carries.stackPointer, List.length_cons, UInt8.ofNat_add]
    grind
  refine ⟨_, wraps, carries.pullByte.2, cpu.pullByte_confined, ?_, ?_⟩
  · rw [wraps.stackWraps, List.length_replicate]
  · rw [List.length_cons, crossed_succ base room]
    simp [List.count_replicate, atTop]

theorem Moves.wrapNoted_eq {kind : WrapKind} {count : Nat} {next : List UInt8}
    {operation : Operation}
    (moves : Moves base kind count stack next cpu (cpu.carryOut operation).2) :
    cpu.wrapNoted operation = List.replicate count kind := by
  have noted := moves.wraps.lastStackWrap
  -- At either end the pointer has crossed the bottom of the page once at most.
  have once : count ≤ 1 := by
    have crossed := moves.keeps.crossed
    simp only [Cpu.crossed, List.count_replicate] at crossed
    cases kind <;> grind
  rw [wrapNoted, moves.wraps.stackWraps]
  rcases Nat.le_one_iff_eq_zero_or_eq_one.mp once with rfl | rfl
  · simp
  · simp [noted]

theorem Moves.keeps_noted {kind : WrapKind} {count : Nat} {next : List UInt8}
    (operation : Operation)
    (moves : Moves base kind count stack next cpu (cpu.carryOut operation).2) :
    Keeps base stack next (cpu.wrapNoted operation) cpu (cpu.carryOut operation).2 :=
  moves.wrapNoted_eq ▸ moves.keeps

theorem Carries.carryOut (carries : Carries base stack cpu) (fits : stack.length ≤ 256)
    {use : StackUse} (enough : use.taken ≤ stack.length)
    (room : use.heightAfter stack.length ≤ 256) :
    ∃ next, use.Acts stack (cpu.carryOut use.operation).1 next ∧
      next.length = use.heightAfter stack.length ∧
      Keeps base stack next (cpu.wrapNoted use.operation) cpu
        (cpu.carryOut use.operation).2 := by
  cases use with
  | push value =>
      have room : stack.length + 1 ≤ 256 := room
      obtain ⟨count, moves⟩ := carries.push_moves room value
      exact ⟨_, .push value stack, rfl, moves.keeps_noted (.push value)⟩
  | pushWord value =>
      have room : stack.length + 2 ≤ 256 := room
      -- The low byte is pushed last and so comes to lie on top.
      obtain ⟨count, first⟩ := carries.push_moves (by omega) (highByte value)
      obtain ⟨more, second⟩ := first.keeps.carries.push_moves (by simp; omega) (lowByte value)
      exact ⟨_, .pushWord value stack, rfl, (first.trans second).keeps_noted (.pushWord value)⟩
  | pull =>
      cases stack with
      | nil => simp [StackUse.taken] at enough
      | cons byte rest =>
          obtain ⟨count, moves⟩ := carries.pull_moves fits
          have answer : (cpu.carryOut .pull).1 = .byte byte :=
            congrArg Answer.byte carries.pullByte.1
          refine ⟨rest, ?_, rfl, moves.keeps_noted .pull⟩
          rw [StackUse.operation, answer]
          exact .pull byte rest
  | pullWord =>
      match stack with
      | [] | [_] => simp [StackUse.taken] at enough
      | low :: high :: rest =>
          obtain ⟨count, first⟩ := carries.pull_moves fits
          obtain ⟨more, second⟩ := first.keeps.carries.pull_moves (by simp at fits; omega)
          have answer : (cpu.carryOut .pullWord).1 = .word (wordOf low high) := by
            simp only [Cpu.carryOut, pullWord, carries.pullByte.1,
              first.keeps.carries.pullByte.1]
          have acts := StackUse.Acts.pullWord (wordOf low high) rest
          rw [lowByte_wordOf, highByte_wordOf, ← answer] at acts
          exact ⟨rest, acts, rfl, (first.trans second).keeps_noted .pullWord⟩

def wrapsNoted (cpu : Cpu FlatMemory) (uses : List StackUse) : List WrapKind :=
  Dialogue.gather Cpu.carryOut wrapNoted cpu (uses.map StackUse.operation)

theorem Carries.carryOutAll {uses : List StackUse} (carries : Carries base stack cpu)
    (fits : stack.length ≤ 256) (balanced : StackUse.balanced stack.length uses = true) :
    StackUse.LastInFirstOut stack uses (cpu.carryOutAll (uses.map StackUse.operation)).1 [] ∧
      Keeps base stack [] (cpu.wrapsNoted uses) cpu
        (cpu.carryOutAll (uses.map StackUse.operation)).2 := by
  induction uses generalizing stack cpu with
  | nil =>
      have empty : stack = [] := by simpa [StackUse.balanced] using balanced
      subst empty
      exact ⟨.nil [], carries, .refl cpu, rfl, rfl⟩
  | cons use rest ih =>
      simp only [StackUse.balanced, Bool.and_eq_true, decide_eq_true_eq] at balanced
      obtain ⟨⟨enough, room⟩, later⟩ := balanced
      obtain ⟨next, acts, height, keeps⟩ := carries.carryOut fits enough room
      rw [← height] at room later
      obtain ⟨answers, keepsLater⟩ := ih keeps.carries room later
      exact ⟨.cons acts answers, keeps.trans keepsLater⟩

/-- However it wraps around on its page, a stack that is used in a balanced way gives back what was
last put on it, and leaves nothing behind: the stack pointer comes back, having wrapped as often
below zero as above 0xFF, and no other memory has been touched. -/
theorem stack_last_in_first_out (cpu : Cpu FlatMemory) (uses : List StackUse)
    (balanced : StackUse.balanced 0 uses = true) :
    StackUse.LastInFirstOut [] uses (cpu.carryOutAll (uses.map StackUse.operation)).1 [] ∧
    (cpu.carryOutAll (uses.map StackUse.operation)).2.registers = cpu.registers ∧
    (∀ address, address < 0x0100 ∨ 0x01FF < address →
      (cpu.carryOutAll (uses.map StackUse.operation)).2.memory.read address =
        cpu.memory.read address) ∧
    (cpu.wrapsNoted uses).count .overflow = (cpu.wrapsNoted uses).count .underflow ∧
    (cpu.carryOutAll (uses.map StackUse.operation)).2.stackWraps =
      cpu.stackWraps + 2 * (cpu.wrapsNoted uses).count .overflow := by
  have carries : Carries cpu.registers.stackPointer [] cpu := ⟨by simp, trivial⟩
  obtain ⟨answers, keeps⟩ := carries.carryOutAll (by simp) balanced
  have even : (cpu.wrapsNoted uses).count .overflow = (cpu.wrapsNoted uses).count .underflow :=
    (Nat.add_left_cancel keeps.crossed).symm
  refine ⟨answers, ?_, keeps.confined.memory, even, ?_⟩
  · rw [keeps.confined.registers, keeps.carries.stackPointer]
    simp
  · rw [keeps.stackWraps, WrapKind.length_eq_counts, ← even]
    omega

def nearBottom : Cpu FlatMemory :=
  { memory := FlatMemory.zeroed, registers := { stackPointer := 0x01 } }

def mixedUses : List StackUse :=
  [.pushWord 0x1234, .pushWord 0xABCD, .pull, .push 0xEE, .pullWord, .pullWord]

theorem nearBottom_last_in_first_out :
    (nearBottom.carryOutAll (mixedUses.map StackUse.operation)).1 =
        [.done, .done, .byte 0xCD, .done, .word 0xABEE, .word 0x1234] ∧
      StackUse.LastInFirstOut [] mixedUses
        (nearBottom.carryOutAll (mixedUses.map StackUse.operation)).1 [] ∧
      nearBottom.wrapsNoted mixedUses = [.overflow, .underflow] ∧
      (nearBottom.carryOutAll (mixedUses.map StackUse.operation)).2.stackWraps = 2 := by
  obtain ⟨answers, _, _, _, stackWraps⟩ :=
    stack_last_in_first_out nearBottom mixedUses (by decide)
  have wraps : nearBottom.wrapsNoted mixedUses = [.overflow, .underflow] := by decide +kernel
  exact ⟨rfl, answers, wraps, by rw [stackWraps, wraps]; rfl⟩

end Cpu

end Nmos6502
