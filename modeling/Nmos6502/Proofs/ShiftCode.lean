import Nmos6502.Proofs.ShiftChain
import Nmos6502.Proofs.Signals

/-!
Shifts that stand one after the other in memory, away from the bytes that they work on. None of
them changes the code, the index register or what is due, so that they are all executed in turn.
-/

namespace Nmos6502

theorem Opcode.mode_of_shift {byte : UInt8} (isShift : (ofByte byte).mnemonic.isShift = true) :
    (ofByte byte).mode ∈
      [AddressingMode.accumulator, .zeroPage, .zeroPageX, .absolute, .absoluteX] :=
  forall_ofByte (P := fun opcode => opcode.mnemonic.isShift = true → opcode.mode ∈
    [AddressingMode.accumulator, .zeroPage, .zeroPageX, .absolute, .absoluteX])
    (by decide +kernel) byte isShift

theorem Operand.place_congr {mode : AddressingMode}
    (ofShift : mode ∈ [AddressingMode.accumulator, .zeroPage, .zeroPageX, .absolute, .absoluteX])
    {memory other : FlatMemory} {registers others : Registers} (x : others.x = registers.x)
    {address : UInt16}
    (code : ∀ offset < mode.instructionLength,
      other.read (address + UInt16.ofNat offset) = memory.read (address + UInt16.ofNat offset)) :
    (resolve mode others other address).place = (resolve mode registers memory address).place := by
  have low (within : 1 < mode.instructionLength) :
      Bus.read other (address + 1) = Bus.read memory (address + 1) := code 1 within
  have word (within : 2 < mode.instructionLength) :
      readWord other (address + 1) = readWord memory (address + 1) := by
    have second : address + 1 + 1 = address + UInt16.ofNat 2 := by
      rw [UInt16.add_assoc]
      rfl
    rw [readWord, readWord, second, low (by omega)]
    exact congrArg (wordOf _) (code 2 within)
  simp only [List.mem_cons, List.not_mem_nil, or_false] at ofShift
  rcases ofShift with rfl | rfl | rfl | rfl | rfl
  · rfl
  · simp only [resolve, low (by decide)]
  · simp only [resolve, low (by decide), x]
  · simp only [resolve, word (by decide)]
  · simp only [resolve, word (by decide), x]

namespace Cpu

/-- From an address on, memory holds some shifts, each for its own place, and no byte of them is at
one of the places. -/
def Holds (memory : FlatMemory) (registers : Registers) (places : List Place) :
    UInt16 → List (Shift × Place) → Prop
  | _, [] => True
  | address, (shift, place) :: rest =>
      (Opcode.ofByte (memory.read address)).mnemonic = shift.mnemonic ∧
      (Operand.resolve (Opcode.ofByte (memory.read address)).mode registers memory address).place =
        place ∧
      (∀ offset < (Opcode.ofByte (memory.read address)).size,
        .cell (address + UInt16.ofNat offset) ∉ places) ∧
      Holds memory registers places
        (address + UInt16.ofNat (Opcode.ofByte (memory.read address)).size) rest

structure Ready (places : List Place) (tasks : List (Shift × Place)) (cpu : Cpu FlatMemory) :
    Prop where
  running : cpu.halted = false
  free : cpu.dueInterrupt = none
  code : Holds cpu.memory cpu.registers places cpu.registers.programCounter tasks

variable {places : List Place} {tasks rest : List (Shift × Place)} {shift : Shift} {place : Place}
  {cpu : Cpu FlatMemory}

theorem Holds.congr {memory other : FlatMemory} {registers others : Registers} {address : UInt16}
    (holds : Holds memory registers places address tasks) (x : others.x = registers.x)
    (elsewhere : ∀ address, .cell address ∉ places → other.read address = memory.read address) :
    Holds other others places address tasks := by
  induction tasks generalizing address with
  | nil => trivial
  | cons task rest ih =>
      obtain ⟨mnemonic, place, apart, later⟩ := holds
      have same : other.read address = memory.read address := by
        have first := apart 0 (Opcode.size_bounds _).1
        rw [show address + UInt16.ofNat 0 = address from UInt16.add_zero address] at first
        exact elsewhere address first
      have mode : (Opcode.ofByte (memory.read address)).mode ∈ _ :=
        Opcode.mode_of_shift (by rw [mnemonic]; exact task.1.isShift)
      rw [Holds, same]
      refine ⟨mnemonic, ?_, apart, ih later⟩
      rw [Operand.place_congr mode x fun offset within => elsewhere _ (apart offset within)]
      exact place

theorem dueInterrupt_congr {before after : Cpu FlatMemory}
    (signals : after.signals = before.signals)
    (masked : after.registers.status.interruptDisable =
      before.registers.status.interruptDisable) : after.dueInterrupt = before.dueInterrupt := by
  have nmi := congrArg Signals.nmiRequested signals
  have irq := congrArg Signals.irqRequested signals
  simp only [Cpu.signals] at nmi irq
  simp only [dueInterrupt, irqPending, nmi, irq, masked]
  rfl

theorem Ready.step (ready : Ready places ((shift, place) :: rest) cpu) (among : place ∈ places) :
    cpu.AboutTo shift.mnemonic ∧ cpu.nextOperand.place = place ∧ Ready places rest cpu.step.2 := by
  obtain ⟨mnemonic, here, apart, later⟩ := ready.code
  have aboutTo : cpu.AboutTo shift.mnemonic := ⟨ready.running, ready.free, mnemonic⟩
  have legal := (aboutTo.executes (by cases shift <;> decide)).legal
  have shifted := aboutTo.shifted
  have signals : cpu.step.2.signals = cpu.signals := by
    rw [step_signals, if_neg (by simp [ready.running]), ready.free, legal, ← ready.running]
    rfl
  refine ⟨aboutTo, here, ?_, ?_, ?_⟩
  · rw [← ready.running]
    exact congrArg Signals.halted signals
  · rw [← ready.free]
    apply dueInterrupt_congr signals
    rw [shifted.status, shift.interruptDisable_kept]
  · rw [shifted.programCounter]
    refine later.congr shifted.x fun address outside => ?_
    refine shifted.elsewhere (.cell address) ?_
    intro same
    exact outside ((same.trans here).symm ▸ among)

theorem Ready.relay (ready : Ready places tasks cpu) (among : tasks.map Prod.snd ⊆ places) :
    Relay places tasks cpu (cpu.after tasks.length) := by
  induction tasks generalizing cpu with
  | nil => exact .nil ⟨rfl, fun _ _ => rfl⟩
  | cons task rest ih =>
      rw [List.map_cons, List.cons_subset] at among
      obtain ⟨aboutTo, here, next⟩ := ready.step among.1
      have relay := Relay.cons ⟨rfl, fun _ _ => rfl⟩ aboutTo (ih next among.2)
      rw [here] at relay
      exact relay

/-- Shifts of a number byte by byte move it as a whole. -/
theorem shift_chain_exact (places : List Place) (some : places ≠ []) (distinct : places.Nodup)
    (start final : Cpu FlatMemory) :
    (∀ tasks : List (Shift × Place), tasks.map Prod.snd ⊆ places → Ready places tasks start →
      Relay places tasks start (start.after tasks.length)) ∧
    (Relay places (Shift.pass .asl .rol places) start final →
      final.numberAt places = 2 * start.numberAt places % 256 ^ places.length ∧
      final.registers.status.carry =
        (start.numberAt places).testBit (8 * places.length - 1)) ∧
    (Relay places (Shift.pass .lsr .ror places.reverse) start final →
      final.numberAt places = start.numberAt places / 2 ∧
      final.registers.status.carry = (start.numberAt places).testBit 0) ∧
    (Relay places (Shift.pass .rol .rol places) start final →
      final.wordAt places = (start.wordAt places).rotateLeft 1 ∧
      ∀ last, Relay places (Shift.pass .ror .ror places.reverse) final last →
        Passes places start last) ∧
    ∀ (cpu : Cpu FlatMemory) (shift : Shift), cpu.AboutTo shift.mnemonic →
      (∃ cycles, cpu.step.1 = .ok cycles) ∧
      cpu.step.2.registers.status.Describes (cpu.step.2.valueAt cpu.nextOperand.place) := by
  refine ⟨fun tasks among ready => ready.relay among, ?_, ?_, ?_, ?_⟩
  · intro relay
    -- The first shift moves in no bit, so that twice the number is all there is.
    have balance := relay.left_balance (.inl rfl) some distinct
    obtain ⟨number, carry⟩ := eq_mod_of_carry (final.numberAt_lt places) balance
    refine ⟨number, ?_⟩
    rw [Bool.eq_iff_iff, carry,
      testBit_high (List.length_pos_iff.mpr some) (start.numberAt_lt places)]
    rfl
  · intro relay
    have balance := relay.right_balance (.inl rfl) some distinct
    have carryBound := final.registers.status.carry.toNat_lt
    change start.numberAt places + 256 ^ places.length * 0 = _ at balance
    refine ⟨by omega, ?_⟩
    rw [Nat.testBit_zero, Bool.eq_iff_iff, decide_eq_true_iff, ← Bool.toNat_eq_one]
    omega
  · intro relay
    have balance := relay.left_balance (.inr rfl) some distinct
    exact ⟨wordAt_rotateLeft some balance, fun last undo => relay.undone undo some distinct⟩
  · intro cpu shift aboutTo
    have shifted := aboutTo.shifted
    refine ⟨aboutTo.succeeds (by cases shift <;> decide), ?_⟩
    rw [shifted.value, shifted.status]
    exact shift.describes _ _

def movedWord : Cpu FlatMemory :=
  { memory := FlatMemory.zeroed.loadAll
      [(0x10, [0x81, 0xC3]),
        (0x8000, [0x06, 0x10, 0x26, 0x11, 0x46, 0x11, 0x66, 0x10, 0x26, 0x10, 0x26, 0x11, 0x66, 0x11,
          0x66, 0x10])]
    registers := { programCounter := 0x8000 } }

def movedWord.cells : List Place :=
  [.cell 0x10, .cell 0x11]

theorem movedWord_doubles :
    Ready movedWord.cells (Shift.pass .asl .rol movedWord.cells) movedWord := by
  refine ⟨?_, ?_, ?_, ?_, ?_, ?_, ?_, ?_, trivial⟩ <;> decide +kernel

theorem movedWord_halves :
    Ready movedWord.cells (Shift.pass .lsr .ror movedWord.cells.reverse)
      (movedWord.after 2) := by
  refine ⟨?_, ?_, ?_, ?_, ?_, ?_, ?_, ?_, trivial⟩ <;> decide +kernel

theorem movedWord_rotates :
    Ready movedWord.cells (Shift.pass .rol .rol movedWord.cells) (movedWord.after 4) := by
  refine ⟨?_, ?_, ?_, ?_, ?_, ?_, ?_, ?_, trivial⟩ <;> decide +kernel

theorem movedWord_rotates_back :
    Ready movedWord.cells (Shift.pass .ror .ror movedWord.cells.reverse)
      (movedWord.after 6) := by
  refine ⟨?_, ?_, ?_, ?_, ?_, ?_, ?_, ?_, trivial⟩ <;> decide +kernel

theorem movedWord_exact :
    movedWord.numberAt movedWord.cells = 0xC381 ∧
      (movedWord.after 2).numberAt movedWord.cells = 2 * 0xC381 % 256 ^ 2 ∧
      (movedWord.after 2).registers.status.carry = true ∧
      (movedWord.after 4).numberAt movedWord.cells =
        (movedWord.after 2).numberAt movedWord.cells / 2 ∧
      (movedWord.after 6).wordAt movedWord.cells =
        ((movedWord.after 4).wordAt movedWord.cells).rotateLeft 1 ∧
      Passes movedWord.cells (movedWord.after 4) (movedWord.after 8) ∧
      movedWord.step.2.registers.status.Describes 0x02 := by
  have number : movedWord.numberAt movedWord.cells = 0xC381 := by decide +kernel
  have chain (start final : Cpu FlatMemory) :=
    shift_chain_exact movedWord.cells (by decide) (by decide) start final
  have doubling := (chain movedWord movedWord).1 _ (by decide) movedWord_doubles
  have halving := (chain _ movedWord).1 _ (by decide) movedWord_halves
  have rotating := (chain _ movedWord).1 _ (by decide) movedWord_rotates
  have undoing := (chain _ movedWord).1 _ (by decide) movedWord_rotates_back
  rw [← after_add] at halving rotating undoing
  obtain ⟨doubled, out⟩ := (chain movedWord (movedWord.after 2)).2.1 doubling
  obtain ⟨halved, _⟩ := (chain (movedWord.after 2) (movedWord.after 4)).2.2.1 halving
  obtain ⟨rotated, undone⟩ := (chain (movedWord.after 4) (movedWord.after 6)).2.2.2.1 rotating
  have restored := undone (movedWord.after 8) undoing
  obtain ⟨_, describes⟩ := (chain movedWord movedWord).2.2.2.2 movedWord .asl
    ⟨by decide +kernel, by decide +kernel, by decide +kernel⟩
  have written : movedWord.step.2.valueAt movedWord.nextOperand.place = 0x02 := by
    decide +kernel
  rw [number] at doubled out
  rw [written] at describes
  exact ⟨number, doubled, out.trans (by decide +kernel), halved, rotated, restored, describes⟩

end Cpu

end Nmos6502
