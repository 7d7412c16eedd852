import Nmos6502.Bus

/-!
Memory shown in rows of sixteen bytes, in hexadecimal and as characters. A byte that
cannot be peeked at is shown as unknown, and a short last row is filled with blanks.
-/

namespace Nmos6502.Dump

def rowLength : Nat := 16

def characterOf (byte : UInt8) : Char :=
  if 0x20 ≤ byte ∧ byte ≤ 0x7E then Char.ofNat byte.toNat else '.'

inductive Cell
  | byte (value : UInt8)
  | unknown
  | blank
  deriving DecidableEq, Repr

namespace Cell

def hex : Cell → String
  | byte value => " " ++ Hex.byte value
  | unknown => " ??"
  | blank => "   "

def character : Cell → Char
  | byte value => characterOf value
  | unknown => '?'
  | blank => ' '

end Cell

variable {β : Type} [Bus β]

def cellAt (memory : β) (address : UInt16) (count column : Nat) : Cell :=
  if count ≤ column then .blank
  else
    match Bus.peek memory (address + UInt16.ofNat column) with
    | some value => .byte value
    | none => .unknown

def rowCells (memory : β) (address : UInt16) (count : Nat) : List Cell :=
  (List.range rowLength).map (cellAt memory address count)

def rowText (memory : β) (address : UInt16) (count : Nat) : String :=
  let cells := rowCells memory address count
  Hex.word address ++ ":" ++ String.join (cells.map Cell.hex) ++
    " |" ++ String.ofList (cells.map Cell.character) ++ "|\n"

def writeRows (memory : β) (start : UInt16) (length offset : Nat) (written : String) : String :=
  if offset < length then
    let count := min (length - offset) rowLength
    writeRows memory start length (offset + count)
      (written ++ rowText memory (start + UInt16.ofNat offset) count)
  else written
termination_by length - offset
decreasing_by
  simp only [rowLength]
  omega

/-- Addresses go on from zero after the last one. -/
def text (memory : β) (start : UInt16) (length : Nat) : String :=
  writeRows memory start length 0 ""

end Nmos6502.Dump
