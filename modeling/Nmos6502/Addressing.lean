/-!
The thirteen ways in which an instruction names its operand.
-/

namespace Nmos6502

inductive AddressingMode
  | implicit
  | accumulator
  | immediate
  | zeroPage
  | zeroPageX
  | zeroPageY
  | relative
  | absolute
  | absoluteX
  | absoluteY
  | indirect
  | indirectX
  | indirectY
  deriving DecidableEq, Repr, Inhabited

namespace AddressingMode

def all : List AddressingMode :=
  [implicit, accumulator, immediate, zeroPage, zeroPageX, zeroPageY, relative, absolute, absoluteX,
   absoluteY, indirect, indirectX, indirectY]

theorem mem_all (mode : AddressingMode) : mode ∈ all := by
  cases mode <;> decide

def name : AddressingMode → String
  | implicit => "Implicit"
  | accumulator => "Accumulator"
  | immediate => "Immediate"
  | zeroPage => "ZeroPage"
  | zeroPageX => "ZeroPageX"
  | zeroPageY => "ZeroPageY"
  | relative => "Relative"
  | absolute => "Absolute"
  | absoluteX => "AbsoluteX"
  | absoluteY => "AbsoluteY"
  | indirect => "Indirect"
  | indirectX => "IndirectX"
  | indirectY => "IndirectY"

def operandLength : AddressingMode → Nat
  | implicit | accumulator => 0
  | immediate | zeroPage | zeroPageX | zeroPageY | relative | indirectX | indirectY => 1
  | absolute | absoluteX | absoluteY | indirect => 2

def instructionLength (mode : AddressingMode) : Nat :=
  mode.operandLength + 1

theorem instructionLength_bounds (mode : AddressingMode) :
    1 ≤ mode.instructionLength ∧ mode.instructionLength ≤ 3 := by
  cases mode <;> decide

end AddressingMode

def operandBytes (operands : UInt8 × UInt8) (size : Nat) : List UInt8 :=
  [operands.1, operands.2].take (size - 1)

def wordOf (low high : UInt8) : UInt16 :=
  high.toUInt16 <<< 8 ||| low.toUInt16

def lowByte (word : UInt16) : UInt8 := word.toUInt8

def highByte (word : UInt16) : UInt8 := (word >>> 8).toUInt8

theorem toNat_wordOf (low high : UInt8) :
    (wordOf low high).toNat = 256 * high.toNat + low.toNat := by
  have lowBound := low.toNat_lt
  have highBound := high.toNat_lt
  have joined := Nat.shiftLeft_add_eq_or_of_lt (b := low.toNat) (i := 8) lowBound high.toNat
  simp only [Nat.shiftLeft_eq, Nat.reducePow] at joined
  simp only [wordOf, UInt16.toNat_or, UInt16.toNat_shiftLeft, UInt8.toNat_toUInt16,
    UInt16.toNat_ofNat, Nat.reducePow, Nat.reduceMod, Nat.shiftLeft_eq]
  rw [Nat.mod_eq_of_lt (by omega), ← joined]
  omega

theorem wordOf_bytes (word : UInt16) : wordOf (lowByte word) (highByte word) = word := by
  have bound := word.toNat_lt
  apply UInt16.toNat_inj.mp
  rw [toNat_wordOf]
  simp only [lowByte, highByte, UInt16.toNat_toUInt8, UInt16.toNat_shiftRight, UInt16.toNat_ofNat,
    Nat.reducePow, Nat.reduceMod, Nat.shiftRight_eq_div_pow]
  omega

theorem lowByte_wordOf (low high : UInt8) : lowByte (wordOf low high) = low := by
  apply UInt8.toBitVec_inj.mp
  ext place bound
  simp [lowByte, wordOf]

theorem highByte_wordOf (low high : UInt8) : highByte (wordOf low high) = high := by
  apply UInt8.toBitVec_inj.mp
  ext place bound
  simp [highByte, wordOf]
  grind

def pageOf (address : UInt16) : UInt16 := address &&& 0xFF00

end Nmos6502
