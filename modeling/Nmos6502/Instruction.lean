import Nmos6502.Opcode

/-!
Instructions as they stand in memory. A byte that starts no documented instruction, or
one whose operand is cut off, stands for itself as data.
-/

namespace Nmos6502

structure Instruction where
  address : UInt16
  opcode : UInt8
  mnemonic : Mnemonic
  mode : AddressingMode
  /-- Bytes that do not belong to the instruction are zero when it has been decoded. -/
  operands : UInt8 × UInt8
  size : Nat
  cycles : Nat
  deriving DecidableEq, Repr

namespace Instruction

def dataByte (address : UInt16) (byte : UInt8) : Instruction where
  address := address
  opcode := byte
  mnemonic := .illegal
  mode := .implicit
  operands := (0, 0)
  size := 1
  cycles := 0

def isData (instruction : Instruction) : Bool :=
  instruction.mnemonic == .illegal

def operandBytes (instruction : Instruction) : List UInt8 :=
  Nmos6502.operandBytes instruction.operands instruction.size

def bytes (instruction : Instruction) : List UInt8 :=
  instruction.opcode :: instruction.operandBytes

def takeOperands : (count : Nat) → List UInt8 → Option (UInt8 × UInt8)
  | 0, _ => some (0, 0)
  | 1, low :: _ => some (low, 0)
  | 2, low :: high :: _ => some (low, high)
  | _, _ => none

def decode (address : UInt16) : List UInt8 → Option Instruction
  | [] => none
  | byte :: rest =>
      let opcode := Opcode.ofByte byte
      if opcode.isIllegal then some (dataByte address byte)
      else
        (takeOperands opcode.mode.operandLength rest).map fun operands =>
          { address
            opcode := byte
            mnemonic := opcode.mnemonic
            mode := opcode.mode
            operands
            size := opcode.size
            cycles := opcode.cycles }

def decodeOrData (address : UInt16) (byte : UInt8) (rest : List UInt8) : Instruction :=
  (decode address (byte :: rest)).getD (dataByte address byte)

def disassembleOnto (collected : List Instruction) (address : UInt16) (bytes : List UInt8) :
    List Instruction :=
  match bytes with
  | [] => collected.reverse
  | byte :: rest =>
      let instruction := decodeOrData address byte rest
      disassembleOnto (instruction :: collected) (address + UInt16.ofNat instruction.size)
        (rest.drop (instruction.size - 1))
termination_by bytes.length
decreasing_by
  simp only [List.length_drop, List.length_cons]
  omega

def disassemble (address : UInt16) (bytes : List UInt8) : List Instruction :=
  disassembleOnto [] address bytes

theorem disassembleOnto_eq (collected : List Instruction) (address : UInt16)
    (bytes : List UInt8) :
    disassembleOnto collected address bytes = collected.reverse ++ disassemble address bytes := by
  suffices general : ∀ length, ∀ bytes : List UInt8, bytes.length ≤ length →
      ∀ collected address, disassembleOnto collected address bytes =
        collected.reverse ++ disassembleOnto [] address bytes from
    general bytes.length bytes (Nat.le_refl _) collected address
  intro length
  induction length with
  | zero =>
      intro bytes bound collected address
      have empty : bytes = [] := List.length_eq_zero_iff.mp (by omega)
      subst empty
      simp [disassembleOnto]
  | succ length ih =>
      intro bytes bound collected address
      cases bytes with
      | nil => simp [disassembleOnto]
      | cons byte rest =>
          have shorter : (rest.drop ((decodeOrData address byte rest).size - 1)).length ≤ length := by
            simp only [List.length_drop, List.length_cons] at bound ⊢
            omega
          rw [disassembleOnto, disassembleOnto]
          rw [ih _ shorter (_ :: collected), ih _ shorter [_]]
          simp

theorem disassemble_nil (address : UInt16) : disassemble address [] = [] := by
  simp [disassemble, disassembleOnto]

theorem disassemble_cons (address : UInt16) (byte : UInt8) (rest : List UInt8) :
    disassemble address (byte :: rest) =
      decodeOrData address byte rest ::
        disassemble (address + UInt16.ofNat (decodeOrData address byte rest).size)
          (rest.drop ((decodeOrData address byte rest).size - 1)) := by
  rw [disassemble, disassembleOnto]
  rw [disassembleOnto_eq]
  rfl

end Instruction

end Nmos6502
