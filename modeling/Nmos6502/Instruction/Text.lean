import Nmos6502.Instruction
import Nmos6502.Operand
import Nmos6502.Text.Layout

/-!
Instructions as assembly text, one by one and as a listing.
-/

namespace Nmos6502

namespace Instruction

def word (instruction : Instruction) : UInt16 :=
  wordOf instruction.operands.1 instruction.operands.2

def target (instruction : Instruction) : UInt16 :=
  Operand.branchTarget instruction.address instruction.operands.1

def operandText (instruction : Instruction) : String :=
  let byte := Hex.byte instruction.operands.1
  let word := Hex.word instruction.word
  match instruction.mode with
  | .implicit => ""
  | .accumulator => " A"
  | .immediate => " #$" ++ byte
  | .zeroPage => " $" ++ byte
  | .zeroPageX => " $" ++ byte ++ ",X"
  | .zeroPageY => " $" ++ byte ++ ",Y"
  | .relative => " $" ++ Hex.word instruction.target
  | .absolute => " $" ++ word
  | .absoluteX => " $" ++ word ++ ",X"
  | .absoluteY => " $" ++ word ++ ",Y"
  | .indirect => " ($" ++ word ++ ")"
  | .indirectX => " ($" ++ byte ++ ",X)"
  | .indirectY => " ($" ++ byte ++ "),Y"

def text (instruction : Instruction) : String :=
  if instruction.isData then ".byte $" ++ Hex.byte instruction.opcode
  else instruction.mnemonic.text ++ instruction.operandText

end Instruction

structure Listing where
  start : UInt16
  showBytes : Bool
  showOffsets : Bool

namespace Listing

def line (listing : Listing) (instruction : Instruction) : String :=
  let offset :=
    if listing.showOffsets then "+" ++ Hex.word (instruction.address - listing.start) ++ " " else ""
  let bytes :=
    if listing.showBytes then
      Field.padRight (" ".intercalate (instruction.bytes.map Hex.byte)) 10
    else ""
  offset ++ Hex.word instruction.address ++ "  " ++ bytes ++ instruction.text ++ "\n"

def text (listing : Listing) (instructions : List Instruction) : String :=
  String.join (instructions.map listing.line)

end Listing

end Nmos6502
