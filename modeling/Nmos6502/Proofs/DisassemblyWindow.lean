import Mathlib.Data.List.Chain
import Nmos6502.Monitor
import Nmos6502.Proofs.DisassemblyTiling

/-!
The window of memory that a monitor disassembles. Three bytes for each instruction that is asked
for leave none of these instructions cut off, however long the ones before it are.
-/

namespace Nmos6502

namespace Instruction

theorem isPrefix_text_iff (instruction : Instruction) :
    ".byte".toList <+: instruction.text.toList ↔ instruction.isData = true := by
  rw [text]
  cases data : instruction.isData with
  | true =>
      rw [if_pos rfl]
      simp only [iff_true]
      exact ⟨(" $" ++ Hex.byte instruction.opcode).toList, by simp⟩
  | false =>
      -- A mnemonic begins with a letter, or with a question mark if it is none.
      obtain ⟨first, letters, starts, notDot⟩ := instruction.mnemonic.text_starts
      rw [if_neg Bool.false_ne_true, String.toList_append, starts]
      simp only [Bool.false_eq_true, iff_false]
      rintro ⟨after, same⟩
      exact notDot (List.cons.inj same).1.symm

section

variable (address : UInt16) {byte : UInt8} {rest : List UInt8}
  (enough : (Opcode.ofByte byte).size ≤ rest.length + 1)

include enough

theorem isData_iff_isIllegal :
    (decodeOrData address byte rest).isData = true ↔ (Opcode.ofByte byte).isIllegal = true := by
  have reads := reads_decodeOrData address byte rest
  have opcode := reads.opcode
  rw [List.head?_cons, Option.some.injEq] at opcode
  rw [reads.isData_iff, ← opcode, List.length_cons]
  exact or_iff_left (Nat.not_lt.mpr enough)

theorem decode_of_enough :
    decode address (byte :: rest) = some (decodeOrData address byte rest) := by
  rcases decode_cases address byte rest with ⟨_, found⟩ | ⟨_, short, _⟩ | ⟨_, _, _, _, found⟩
  · rw [decodeOrData, found, Option.getD_some]
  · omega
  · rw [decodeOrData, found, Option.getD_some]

theorem size_decodeOrData_of_enough :
    (decodeOrData address byte rest).size = (Opcode.ofByte byte).size := by
  rcases decode_cases address byte rest with ⟨illegal, found⟩ | ⟨_, short, _⟩ |
    ⟨_, _, _, _, found⟩
  · rw [decodeOrData, found, Option.getD_some, Opcode.size, Opcode.mode_of_isIllegal byte illegal]
    rfl
  · omega
  · rw [decodeOrData, found]
    rfl

theorem decodeOrData_more (more : List UInt8) :
    decodeOrData address byte (rest ++ more) = decodeOrData address byte rest :=
  decodeOrData_append address byte rest more (isData_iff_isIllegal address enough).mp

end

end Instruction

namespace Monitor

variable (monitor : Monitor)

theorem readRange_add (start : UInt16) (length more : Nat) :
    monitor.readRange start (length + more) =
      monitor.readRange start length ++
        monitor.readRange (start + UInt16.ofNat length) more := by
  simp [readRange, List.range_add, UInt16.ofNat_add, UInt16.add_assoc]

theorem length_readRange (start : UInt16) (length : Nat) :
    (monitor.readRange start length).length = length := by
  rw [readRange, List.length_map, List.length_range]

theorem readRange_succ (start : UInt16) (length : Nat) :
    monitor.readRange start (length + 1) =
      monitor.read start :: monitor.readRange (start + 1) length := by
  rw [Nat.add_comm, readRange_add]
  simp [readRange]

theorem drop_readRange (start : UInt16) (passed length : Nat) :
    (monitor.readRange start (passed + length)).drop passed =
      monitor.readRange (start + UInt16.ofNat passed) length := by
  rw [readRange_add, List.drop_left' (monitor.length_readRange start passed)]

theorem take_readRange (start : UInt16) (kept length : Nat) :
    (monitor.readRange start (kept + length)).take kept = monitor.readRange start kept := by
  rw [readRange_add, List.take_left' (monitor.length_readRange start kept)]

/-- The instruction that stands in memory at an address. No other bytes belong to it. -/
def instructionAt (address : UInt16) : Instruction :=
  Instruction.decodeOrData address (monitor.read address) (monitor.readRange (address + 1) 2)

def instructionsFrom (address : UInt16) : (count : Nat) → List Instruction
  | 0 => []
  | count + 1 =>
      let instruction := monitor.instructionAt address
      instruction :: instructionsFrom (address + UInt16.ofNat instruction.size) count

theorem enough_readRange (address : UInt16) (byte : UInt8) :
    (Opcode.ofByte byte).size ≤ (monitor.readRange address 2).length + 1 := by
  rw [length_readRange]
  exact (Opcode.size_bounds (Opcode.ofByte byte)).2

theorem address_instructionAt (address : UInt16) :
    (monitor.instructionAt address).address = address :=
  (Instruction.reads_decodeOrData address _ _).address

theorem size_instructionAt (address : UInt16) :
    (monitor.instructionAt address).size = (Opcode.ofByte (monitor.read address)).size :=
  Instruction.size_decodeOrData_of_enough address (monitor.enough_readRange (address + 1) _)

theorem exists_size_instructionAt (address : UInt16) :
    ∃ operands left, (monitor.instructionAt address).size = operands + 1 ∧
      operands + left = 2 := by
  have bounds := Opcode.size_bounds (Opcode.ofByte (monitor.read address))
  rw [← size_instructionAt] at bounds
  exact ⟨(monitor.instructionAt address).size - 1, 3 - (monitor.instructionAt address).size,
    by omega, by omega⟩

theorem bytes_instructionAt (address : UInt16) :
    (monitor.instructionAt address).bytes =
      monitor.readRange address (monitor.instructionAt address).size := by
  obtain ⟨operands, left, size, total⟩ := monitor.exists_size_instructionAt address
  have bytes : (monitor.instructionAt address).bytes = monitor.read address ::
      (monitor.readRange (address + 1) 2).take ((monitor.instructionAt address).size - 1) :=
    Instruction.decodeOrData_bytes address _ _
  rw [bytes, size, Nat.add_sub_cancel, ← total, take_readRange, readRange_succ]

theorem decode_instructionAt (address : UInt16) :
    Instruction.decode address
        (monitor.readRange address (monitor.instructionAt address).size) =
      some (monitor.instructionAt address) := by
  obtain ⟨operands, left, size, total⟩ := monitor.exists_size_instructionAt address
  have enough : (Opcode.ofByte (monitor.read address)).size ≤
      (monitor.readRange (address + 1) operands).length + 1 := by
    rw [length_readRange, ← size_instructionAt, size]
  rw [size, readRange_succ, Instruction.decode_of_enough address enough, instructionAt, ← total,
    readRange_add, Instruction.decodeOrData_more address enough]

theorem decodeOrData_readRange (address : UInt16) {length : Nat} (enough : 2 ≤ length) :
    Instruction.decodeOrData address (monitor.read address)
        (monitor.readRange (address + 1) length) = monitor.instructionAt address := by
  obtain ⟨more, rfl⟩ := Nat.exists_eq_add_of_le enough
  rw [readRange_add]
  exact Instruction.decodeOrData_more address (monitor.enough_readRange (address + 1) _) _

theorem take_disassemble (start : UInt16) {count length : Nat} (enough : 3 * count ≤ length) :
    (Instruction.disassemble start (monitor.readRange start length)).take count =
      monitor.instructionsFrom start count := by
  -- The first instruction takes up no more than three bytes, so three for each other are left.
  induction count generalizing start length with
  | zero => rfl
  | succ count ih =>
      obtain ⟨operands, left, size, total⟩ := monitor.exists_size_instructionAt start
      obtain ⟨others, rfl⟩ : ∃ others, length = operands + others + 1 :=
        ⟨length - (operands + 1), by omega⟩
      have first := monitor.decodeOrData_readRange start (show 2 ≤ operands + others by omega)
      have next : start + 1 + UInt16.ofNat operands = start + UInt16.ofNat (operands + 1) := by
        rw [UInt16.add_assoc, Nat.add_comm, UInt16.ofNat_add]
        rfl
      rw [readRange_succ, Instruction.disassemble_cons, first, List.take_succ_cons,
        instructionsFrom, size, Nat.add_sub_cancel, drop_readRange, next, ih _ (by omega)]

/-- A line of a disassembly with the whole instruction that stands at its address. Addresses
count modulo the size of memory. -/
structure ShowsWhole (line : Instruction) : Prop where
  bytes : line.bytes = (List.range line.bytes.length).map fun offset =>
    monitor.read (UInt16.ofNat (line.address.toNat + offset))
  whole : line.bytes.length = (Opcode.ofByte (monitor.read line.address)).size
  decoded : Instruction.decode line.address line.bytes = some line
  data_iff : ".byte".toList <+: line.text.toList ↔
    (Opcode.ofByte (monitor.read line.address)).isIllegal = true

theorem instructionAt_showsWhole (address : UInt16) :
    monitor.ShowsWhole (monitor.instructionAt address) := by
  have placed := monitor.address_instructionAt address
  have read := monitor.bytes_instructionAt address
  have length : (monitor.instructionAt address).bytes.length =
      (monitor.instructionAt address).size := by
    rw [read, length_readRange]
  refine ⟨?_, ?_, ?_, ?_⟩
  · rw [length, read, placed, readRange]
    simp [UInt16.ofNat_add]
  · rw [length, size_instructionAt, placed]
  · rw [placed, read, decode_instructionAt]
  · rw [Instruction.isPrefix_text_iff, placed]
    exact Instruction.isData_iff_isIllegal address (monitor.enough_readRange (address + 1) _)

theorem length_instructionsFrom (start : UInt16) (count : Nat) :
    (monitor.instructionsFrom start count).length = count := by
  induction count generalizing start with
  | zero => rfl
  | succ count ih => rw [instructionsFrom, List.length_cons, ih]

theorem instructionsFrom_showsWhole {start : UInt16} {count : Nat} {line : Instruction}
    (member : line ∈ monitor.instructionsFrom start count) : monitor.ShowsWhole line := by
  induction count generalizing start with
  | zero => cases member
  | succ count ih =>
      rw [instructionsFrom, List.mem_cons] at member
      rcases member with rfl | later
      · exact monitor.instructionAt_showsWhole start
      · exact ih later

theorem address_of_head? {start : UInt16} {count : Nat} {line : Instruction}
    (first : (monitor.instructionsFrom start count).head? = some line) :
    line.address = start := by
  cases count with
  | zero => cases first
  | succ count =>
      rw [instructionsFrom, List.head?_cons, Option.some.injEq] at first
      rw [← first, address_instructionAt]

theorem isChain_instructionsFrom (start : UInt16) (count : Nat) :
    (monitor.instructionsFrom start count).IsChain fun line next =>
      next.address = line.address + UInt16.ofNat line.bytes.length := by
  induction count generalizing start with
  | zero => exact .nil
  | succ count ih =>
      rw [instructionsFrom, List.isChain_cons]
      refine ⟨fun next first => ?_, ih _⟩
      rw [monitor.address_of_head? first, address_instructionAt, bytes_instructionAt,
        length_readRange]

/-- A monitor shows as many instructions as it is asked for, from the address on that it is given
and one behind the other, and each of them whole. -/
theorem disassembly_window_whole (start : UInt16) {count : Nat} (few : count ≤ 21845) :
    (monitor.disassemble start count).length = count ∧
      (∀ line, (monitor.disassemble start count).head? = some line → line.address = start) ∧
      ((monitor.disassemble start count).IsChain fun line next =>
        next.address = line.address + UInt16.ofNat line.bytes.length) ∧
      ∀ line ∈ monitor.disassemble start count, monitor.ShowsWhole line := by
  have window : 3 * count ≤ disassemblyWindow count := by
    rw [disassemblyWindow]
    omega
  have shown : monitor.disassemble start count = monitor.instructionsFrom start count :=
    monitor.take_disassemble start window
  rw [shown]
  exact ⟨monitor.length_instructionsFrom start count, fun _ => monitor.address_of_head?,
    monitor.isChain_instructionsFrom start count, fun _ => monitor.instructionsFrom_showsWhole⟩

def overEnd : Monitor :=
  fresh.load 0xFFFE [0x8D, 0x00, 0x02, 0x02, 0x4C, 0xFE]

theorem overEnd_window_whole :
    (overEnd.disassemble 0xFFFE 3).map (fun line => (line.address, line.text)) =
        [(0xFFFE, "STA $0200"), (0x0001, ".byte $02"), (0x0002, "JMP $00FE")] ∧
      (overEnd.disassemble 0xFFFE 21845).length = 21845 ∧
      ∀ line ∈ overEnd.disassemble 0xFFFE 21845, overEnd.ShowsWhole line := by
  obtain ⟨count, _, _, whole⟩ :=
    overEnd.disassembly_window_whole 0xFFFE (show 21845 ≤ 21845 by decide)
  exact ⟨by decide +kernel, count, whole⟩

end Monitor

end Nmos6502
