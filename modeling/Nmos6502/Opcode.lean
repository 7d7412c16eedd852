import Nmos6502.Action
import Nmos6502.Addressing

/-!
The meaning and the cost of every opcode byte. The matrix says which instruction a byte
stands for and how it names its operand; what it costs follows from the two.
-/

namespace Nmos6502

structure Opcode where
  mnemonic : Mnemonic
  mode : AddressingMode
  deriving DecidableEq, Repr, Inhabited

def AddressingMode.accessCycles : AddressingMode → Nat
  | implicit | accumulator | immediate | relative => 2
  | zeroPage => 3
  | zeroPageX | zeroPageY | absolute | absoluteX | absoluteY => 4
  | indirect | indirectY => 5
  | indirectX => 6

def AddressingMode.canCrossPage : AddressingMode → Bool
  | absoluteX | absoluteY | indirectY => true
  | _ => false

namespace Opcode

def undocumented : Opcode := ⟨.illegal, .implicit⟩

/-- The instruction of a byte stands in the row of its high digit and the column of its low
digit. -/
def matrix : Array (Array Opcode) := #[
    #[⟨.brk, .implicit⟩, ⟨.ora, .indirectX⟩, ⟨.illegal, .implicit⟩, ⟨.illegal, .implicit⟩,
      ⟨.illegal, .implicit⟩, ⟨.ora, .zeroPage⟩, ⟨.asl, .zeroPage⟩, ⟨.illegal, .implicit⟩,
      ⟨.php, .implicit⟩, ⟨.ora, .immediate⟩, ⟨.asl, .accumulator⟩, ⟨.illegal, .implicit⟩,
      ⟨.illegal, .implicit⟩, ⟨.ora, .absolute⟩, ⟨.asl, .absolute⟩, ⟨.illegal, .implicit⟩],
    #[⟨.bpl, .relative⟩, ⟨.ora, .indirectY⟩, ⟨.illegal, .implicit⟩, ⟨.illegal, .implicit⟩,
      ⟨.illegal, .implicit⟩, ⟨.ora, .zeroPageX⟩, ⟨.asl, .zeroPageX⟩, ⟨.illegal, .implicit⟩,
      ⟨.clc, .implicit⟩, ⟨.ora, .absoluteY⟩, ⟨.illegal, .implicit⟩, ⟨.illegal, .implicit⟩,
      ⟨.illegal, .implicit⟩, ⟨.ora, .absoluteX⟩, ⟨.asl, .absoluteX⟩, ⟨.illegal, .implicit⟩],
    #[⟨.jsr, .absolute⟩, ⟨.and, .indirectX⟩, ⟨.illegal, .implicit⟩, ⟨.illegal, .implicit⟩,
      ⟨.bit, .zeroPage⟩, ⟨.and, .zeroPage⟩, ⟨.rol, .zeroPage⟩, ⟨.illegal, .implicit⟩,
      ⟨.plp, .implicit⟩, ⟨.and, .immediate⟩, ⟨.rol, .accumulator⟩, ⟨.illegal, .implicit⟩,
      ⟨.bit, .absolute⟩, ⟨.and, .absolute⟩, ⟨.rol, .absolute⟩, ⟨.illegal, .implicit⟩],
    #[⟨.bmi, .relative⟩, ⟨.and, .indirectY⟩, ⟨.illegal, .implicit⟩, ⟨.illegal, .implicit⟩,
      ⟨.illegal, .implicit⟩, ⟨.and, .zeroPageX⟩, ⟨.rol, .zeroPageX⟩, ⟨.illegal, .implicit⟩,
      ⟨.sec, .implicit⟩, ⟨.and, .absoluteY⟩, ⟨.illegal, .implicit⟩, ⟨.illegal, .implicit⟩,
      ⟨.illegal, .implicit⟩, ⟨.and, .absoluteX⟩, ⟨.rol, .absoluteX⟩, ⟨.illegal, .implicit⟩],
    #[⟨.rti, .implicit⟩, ⟨.eor, .indirectX⟩, ⟨.illegal, .implicit⟩, ⟨.illegal, .implicit⟩,
      ⟨.illegal, .implicit⟩, ⟨.eor, .zeroPage⟩, ⟨.lsr, .zeroPage⟩, ⟨.illegal, .implicit⟩,
      ⟨.pha, .implicit⟩, ⟨.eor, .immediate⟩, ⟨.lsr, .accumulator⟩, ⟨.illegal, .implicit⟩,
      ⟨.jmp, .absolute⟩, ⟨.eor, .absolute⟩, ⟨.lsr, .absolute⟩, ⟨.illegal, .implicit⟩],
    #[⟨.bvc, .relative⟩, ⟨.eor, .indirectY⟩, ⟨.illegal, .implicit⟩, ⟨.illegal, .implicit⟩,
      ⟨.illegal, .implicit⟩, ⟨.eor, .zeroPageX⟩, ⟨.lsr, .zeroPageX⟩, ⟨.illegal, .implicit⟩,
      ⟨.cli, .implicit⟩, ⟨.eor, .absoluteY⟩, ⟨.illegal, .implicit⟩, ⟨.illegal, .implicit⟩,
      ⟨.illegal, .implicit⟩, ⟨.eor, .absoluteX⟩, ⟨.lsr, .absoluteX⟩, ⟨.illegal, .implicit⟩],
    #[⟨.rts, .implicit⟩, ⟨.adc, .indirectX⟩, ⟨.illegal, .implicit⟩, ⟨.illegal, .implicit⟩,
      ⟨.illegal, .implicit⟩, ⟨.adc, .zeroPage⟩, ⟨.ror, .zeroPage⟩, ⟨.illegal, .implicit⟩,
      ⟨.pla, .implicit⟩, ⟨.adc, .immediate⟩, ⟨.ror, .accumulator⟩, ⟨.illegal, .implicit⟩,
      ⟨.jmp, .indirect⟩, ⟨.adc, .absolute⟩, ⟨.ror, .absolute⟩, ⟨.illegal, .implicit⟩],
    #[⟨.bvs, .relative⟩, ⟨.adc, .indirectY⟩, ⟨.illegal, .implicit⟩, ⟨.illegal, .implicit⟩,
      ⟨.illegal, .implicit⟩, ⟨.adc, .zeroPageX⟩, ⟨.ror, .zeroPageX⟩, ⟨.illegal, .implicit⟩,
      ⟨.sei, .implicit⟩, ⟨.adc, .absoluteY⟩, ⟨.illegal, .implicit⟩, ⟨.illegal, .implicit⟩,
      ⟨.illegal, .implicit⟩, ⟨.adc, .absoluteX⟩, ⟨.ror, .absoluteX⟩, ⟨.illegal, .implicit⟩],
    #[⟨.illegal, .implicit⟩, ⟨.sta, .indirectX⟩, ⟨.illegal, .implicit⟩, ⟨.illegal, .implicit⟩,
      ⟨.sty, .zeroPage⟩, ⟨.sta, .zeroPage⟩, ⟨.stx, .zeroPage⟩, ⟨.illegal, .implicit⟩,
      ⟨.dey, .implicit⟩, ⟨.illegal, .implicit⟩, ⟨.txa, .implicit⟩, ⟨.illegal, .implicit⟩,
      ⟨.sty, .absolute⟩, ⟨.sta, .absolute⟩, ⟨.stx, .absolute⟩, ⟨.illegal, .implicit⟩],
    #[⟨.bcc, .relative⟩, ⟨.sta, .indirectY⟩, ⟨.illegal, .implicit⟩, ⟨.illegal, .implicit⟩,
      ⟨.sty, .zeroPageX⟩, ⟨.sta, .zeroPageX⟩, ⟨.stx, .zeroPageY⟩, ⟨.illegal, .implicit⟩,
      ⟨.tya, .implicit⟩, ⟨.sta, .absoluteY⟩, ⟨.txs, .implicit⟩, ⟨.illegal, .implicit⟩,
      ⟨.illegal, .implicit⟩, ⟨.sta, .absoluteX⟩, ⟨.illegal, .implicit⟩, ⟨.illegal, .implicit⟩],
    #[⟨.ldy, .immediate⟩, ⟨.lda, .indirectX⟩, ⟨.ldx, .immediate⟩, ⟨.illegal, .implicit⟩,
      ⟨.ldy, .zeroPage⟩, ⟨.lda, .zeroPage⟩, ⟨.ldx, .zeroPage⟩, ⟨.illegal, .implicit⟩,
      ⟨.tay, .implicit⟩, ⟨.lda, .immediate⟩, ⟨.tax, .implicit⟩, ⟨.illegal, .implicit⟩,
      ⟨.ldy, .absolute⟩, ⟨.lda, .absolute⟩, ⟨.ldx, .absolute⟩, ⟨.illegal, .implicit⟩],
    #[⟨.bcs, .relative⟩, ⟨.lda, .indirectY⟩, ⟨.illegal, .implicit⟩, ⟨.illegal, .implicit⟩,
      ⟨.ldy, .zeroPageX⟩, ⟨.lda, .zeroPageX⟩, ⟨.ldx, .zeroPageY⟩, ⟨.illegal, .implicit⟩,
      ⟨.clv, .implicit⟩, ⟨.lda, .absoluteY⟩, ⟨.tsx, .implicit⟩, ⟨.illegal, .implicit⟩,
      ⟨.ldy, .absoluteX⟩, ⟨.lda, .absoluteX⟩, ⟨.ldx, .absoluteY⟩, ⟨.illegal, .implicit⟩],
    #[⟨.cpy, .immediate⟩, ⟨.cmp, .indirectX⟩, ⟨.illegal, .implicit⟩, ⟨.illegal, .implicit⟩,
      ⟨.cpy, .zeroPage⟩, ⟨.cmp, .zeroPage⟩, ⟨.dec, .zeroPage⟩, ⟨.illegal, .implicit⟩,
      ⟨.iny, .implicit⟩, ⟨.cmp, .immediate⟩, ⟨.dex, .implicit⟩, ⟨.illegal, .implicit⟩,
      ⟨.cpy, .absolute⟩, ⟨.cmp, .absolute⟩, ⟨.dec, .absolute⟩, ⟨.illegal, .implicit⟩],
    #[⟨.bne, .relative⟩, ⟨.cmp, .indirectY⟩, ⟨.illegal, .implicit⟩, ⟨.illegal, .implicit⟩,
      ⟨.illegal, .implicit⟩, ⟨.cmp, .zeroPageX⟩, ⟨.dec, .zeroPageX⟩, ⟨.illegal, .implicit⟩,
      ⟨.cld, .implicit⟩, ⟨.cmp, .absoluteY⟩, ⟨.illegal, .implicit⟩, ⟨.illegal, .implicit⟩,
      ⟨.illegal, .implicit⟩, ⟨.cmp, .absoluteX⟩, ⟨.dec, .absoluteX⟩, ⟨.illegal, .implicit⟩],
    #[⟨.cpx, .immediate⟩, ⟨.sbc, .indirectX⟩, ⟨.illegal, .implicit⟩, ⟨.illegal, .implicit⟩,
      ⟨.cpx, .zeroPage⟩, ⟨.sbc, .zeroPage⟩, ⟨.inc, .zeroPage⟩, ⟨.illegal, .implicit⟩,
      ⟨.inx, .implicit⟩, ⟨.sbc, .immediate⟩, ⟨.nop, .implicit⟩, ⟨.illegal, .implicit⟩,
      ⟨.cpx, .absolute⟩, ⟨.sbc, .absolute⟩, ⟨.inc, .absolute⟩, ⟨.illegal, .implicit⟩],
    #[⟨.beq, .relative⟩, ⟨.sbc, .indirectY⟩, ⟨.illegal, .implicit⟩, ⟨.illegal, .implicit⟩,
      ⟨.illegal, .implicit⟩, ⟨.sbc, .zeroPageX⟩, ⟨.inc, .zeroPageX⟩, ⟨.illegal, .implicit⟩,
      ⟨.sed, .implicit⟩, ⟨.sbc, .absoluteY⟩, ⟨.illegal, .implicit⟩, ⟨.illegal, .implicit⟩,
      ⟨.illegal, .implicit⟩, ⟨.sbc, .absoluteX⟩, ⟨.inc, .absoluteX⟩, ⟨.illegal, .implicit⟩]
  ]

def entry (row column : Nat) : Opcode :=
  (matrix.getD row #[]).getD column undocumented

def ofByte (byte : UInt8) : Opcode :=
  entry (byte.toNat / 16) (byte.toNat % 16)

theorem forall_ofByte {P : Opcode → Prop}
    (entries : ∀ row < 16, ∀ column < 16, P (entry row column)) (byte : UInt8) :
    P (ofByte byte) := by
  have bound := byte.toNat_lt
  exact entries _ (by omega) _ (by omega)

def isIllegal (opcode : Opcode) : Bool :=
  opcode.mnemonic == .illegal

def size (opcode : Opcode) : Nat :=
  opcode.mode.instructionLength

/-- The cost without extra cycles. Where a read may spend a cycle to carry the index into
another page, a write always spends it. Changing memory takes two more cycles than writing. -/
def cycles (opcode : Opcode) : Nat :=
  let writeCycles := opcode.mode.accessCycles + opcode.mode.canCrossPage.toNat
  match opcode.mnemonic.action with
  | .read _ => opcode.mode.accessCycles
  | .write _ => writeCycles
  | .modify _ => if opcode.mode = .accumulator then 2 else writeCycles + 2
  | .internal _ | .branch _ => 2
  | .push _ => 3
  | .pull _ => 4
  | .jump => if opcode.mode = .indirect then 5 else 3
  | .call | .subroutineReturn | .interruptReturn => 6
  | .softwareInterrupt => 7

def hasPagePenalty (opcode : Opcode) : Bool :=
  match opcode.mnemonic.action with
  | .read _ => opcode.mode.canCrossPage
  | _ => false

theorem cycles_bounds (byte : UInt8) :
    2 ≤ (ofByte byte).cycles ∧ (ofByte byte).cycles ≤ 7 :=
  forall_ofByte (P := fun opcode => 2 ≤ opcode.cycles ∧ opcode.cycles ≤ 7)
    (by decide +kernel) byte

theorem size_bounds (opcode : Opcode) : 1 ≤ opcode.size ∧ opcode.size ≤ 3 :=
  opcode.mode.instructionLength_bounds

end Opcode

end Nmos6502
