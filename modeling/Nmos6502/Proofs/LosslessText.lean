import Nmos6502.Proofs.InstructionFlow

/-!
The text of instructions tells which bytes they stand for. The outline of an operand shows its
mode, save that a branch looks like an absolute address, and the mnemonic tells those two apart;
the digits then show the bytes.
-/

namespace Nmos6502

/-- A text with a zero in place of every character that can be a digit. -/
def Hex.outline (text : String) : List Char :=
  text.toList.map fun character =>
    if (Hex.digitValue? character).isSome then '0' else character

namespace Hex

theorem outline_append (left right : String) :
    outline (left ++ right) = outline left ++ outline right := by
  simp [outline]

theorem outline_byte (value : UInt8) : outline (byte value) = ['0', '0'] := by
  have bound := value.toNat_lt
  simp only [outline, byte, byteDigits, String.toList_ofList, List.map_cons, List.map_nil]
  rw [digitValue?_digit (by omega), digitValue?_digit (by omega)]
  rfl

theorem outline_word (value : UInt16) : outline (word value) = ['0', '0', '0', '0'] := by
  rw [word, outline_append, outline_byte, outline_byte]
  rfl

theorem byte_injective {left right : UInt8} (same : byte left = byte right) : left = right :=
  byteDigits_injective (String.ofList_injective same)

end Hex

theorem wordOf_injective {low high otherLow otherHigh : UInt8}
    (same : wordOf low high = wordOf otherLow otherHigh) : low = otherLow ∧ high = otherHigh := by
  constructor
  · rw [← lowByte_wordOf low high, same, lowByte_wordOf]
  · rw [← highByte_wordOf low high, same, highByte_wordOf]

namespace Operand

theorem lowByte_signExtend (offset : UInt8) : lowByte (signExtend offset) = offset := by
  simp only [signExtend, lowByte]
  split <;> simp

theorem branchTarget_injective {address : UInt16} {offset other : UInt8}
    (same : branchTarget address offset = branchTarget address other) : offset = other := by
  have extended : signExtend offset = signExtend other := (UInt16.add_right_inj _).mp same
  rw [← lowByte_signExtend offset, extended, lowByte_signExtend]

end Operand

namespace AddressingMode

def outline : AddressingMode → String
  | implicit => ""
  | accumulator => " 0"
  | immediate => " #$00"
  | zeroPage => " $00"
  | zeroPageX => " $00,X"
  | zeroPageY => " $00,Y"
  | relative => " $0000"
  | absolute => " $0000"
  | absoluteX => " $0000,X"
  | absoluteY => " $0000,Y"
  | indirect => " ($0000)"
  | indirectX => " ($00,X)"
  | indirectY => " ($00),Y"

theorem outline_injective {left right : AddressingMode} (same : left.outline = right.outline)
    (relative : left = .relative ↔ right = .relative) : left = right := by
  have checked : ∀ first ∈ all, ∀ second ∈ all, first.outline = second.outline →
      (first = .relative ↔ second = .relative) → first = second := by
    decide
  exact checked left (mem_all left) right (mem_all right) same relative

end AddressingMode

namespace Opcode

def place (opcode : Opcode) : Nat :=
  (matrix.toList.flatMap Array.toList).idxOf opcode

theorem place_entry : ∀ row < 16, ∀ column < 16, (entry row column).isIllegal = false →
    place (entry row column) = 16 * row + column := by
  decide +kernel

theorem place_ofByte {byte : UInt8} (legal : (ofByte byte).isIllegal = false) :
    place (ofByte byte) = byte.toNat := by
  have bound := byte.toNat_lt
  rw [ofByte, place_entry _ (by omega) _ (by omega) legal, Nat.div_add_mod]

theorem ofByte_injective {byte other : UInt8} (legal : (ofByte byte).isIllegal = false)
    (same : ofByte byte = ofByte other) : byte = other := by
  rw [← UInt8.toNat_inj, ← place_ofByte legal, same, place_ofByte (same ▸ legal)]

end Opcode

namespace Mnemonic

theorem length_text (mnemonic : Mnemonic) : mnemonic.text.toList.length = 3 := by
  cases mnemonic <;> rfl

theorem text_starts (mnemonic : Mnemonic) :
    ∃ first rest, mnemonic.text.toList = first :: rest ∧ first ≠ '.' := by
  cases mnemonic <;> exact ⟨_, _, rfl, by decide⟩

end Mnemonic

namespace Instruction

theorem outline_operandText (instruction : Instruction) :
    Hex.outline instruction.operandText = instruction.mode.outline.toList := by
  cases mode : instruction.mode with
  | implicit | accumulator =>
      simp only [operandText, mode]
      decide
  | immediate | zeroPage =>
      simp only [operandText, mode, Hex.outline_append, Hex.outline_byte]
      decide
  | zeroPageX | zeroPageY | indirectX | indirectY =>
      simp only [operandText, mode, Hex.outline_append, Hex.outline_byte]
      decide
  | relative | absolute | absoluteX | absoluteY | indirect =>
      simp only [operandText, mode, Hex.outline_append, Hex.outline_word]
      decide

/-- Texts of one mode at one address show the bytes that the mode takes. -/
theorem operands_of_operandText (left right : Instruction) (address : left.address = right.address)
    (mode : left.mode = right.mode) (same : left.operandText = right.operandText) :
    (1 ≤ right.mode.operandLength → left.operands.1 = right.operands.1) ∧
      (2 ≤ right.mode.operandLength → left.operands.2 = right.operands.2) := by
  simp only [operandText, mode] at same
  cases kind : right.mode with
  | implicit | accumulator => simp [AddressingMode.operandLength]
  | immediate | zeroPage | zeroPageX | zeroPageY | indirectX | indirectY =>
      simp only [kind, String.append_left_inj, String.append_right_inj] at same
      simpa [AddressingMode.operandLength] using Hex.byte_injective same
  | relative =>
      simp only [kind, String.append_right_inj] at same
      have targets : Operand.branchTarget left.address left.operands.1 =
          Operand.branchTarget right.address right.operands.1 := Hex.word_injective same
      rw [address] at targets
      simpa [AddressingMode.operandLength] using Operand.branchTarget_injective targets
  | absolute | absoluteX | absoluteY | indirect =>
      simp only [kind, String.append_left_inj, String.append_right_inj] at same
      have bytes := wordOf_injective (Hex.word_injective same)
      exact ⟨fun _ => bytes.1, fun _ => bytes.2⟩

def documented (address : UInt16) (byte : UInt8) (operands : UInt8 × UInt8) : Instruction where
  address := address
  opcode := byte
  mnemonic := (Opcode.ofByte byte).mnemonic
  mode := (Opcode.ofByte byte).mode
  operands := operands
  size := (Opcode.ofByte byte).size
  cycles := (Opcode.ofByte byte).cycles

theorem takeOperands_unused {count : Nat} {rest : List UInt8} {operands : UInt8 × UInt8}
    (taken : takeOperands count rest = some operands) :
    (count = 0 → operands.1 = 0) ∧ (count ≤ 1 → operands.2 = 0) := by
  rcases count with _ | _ | count
  · cases taken
    exact ⟨fun _ => rfl, fun _ => rfl⟩
  · rcases rest with _ | ⟨low, rest⟩
    · simp [takeOperands] at taken
    · cases taken
      exact ⟨by simp, fun _ => rfl⟩
  · exact ⟨by omega, by omega⟩

theorem takeOperands_take {count : Nat} {rest : List UInt8} {operands : UInt8 × UInt8}
    (taken : takeOperands count rest = some operands) :
    [operands.1, operands.2].take count = rest.take count := by
  rcases count with _ | _ | _ | count
  · simp
  · rcases rest with _ | ⟨low, rest⟩
    · simp [takeOperands] at taken
    · cases taken
      rfl
  · rcases rest with _ | ⟨low, _ | ⟨high, rest⟩⟩
    · simp [takeOperands] at taken
    · simp [takeOperands] at taken
    · cases taken
      rfl
  · simp [takeOperands] at taken

theorem decodeOrData_cases (address : UInt16) (byte : UInt8) (rest : List UInt8) :
    (∃ operands, (Opcode.ofByte byte).isIllegal = false ∧
        takeOperands (Opcode.ofByte byte).mode.operandLength rest = some operands ∧
        decodeOrData address byte rest = documented address byte operands) ∨
      decodeOrData address byte rest = dataByte address byte := by
  rcases illegal : (Opcode.ofByte byte).isIllegal with _ | _
  · rcases taken : takeOperands (Opcode.ofByte byte).mode.operandLength rest with _ | operands
    · right
      simp [decodeOrData, decode, illegal, taken]
    · left
      refine ⟨operands, rfl, rfl, ?_⟩
      simp [decodeOrData, decode, illegal, taken, documented]
  · right
    simp [decodeOrData, decode, illegal]

theorem decodeOrData_bytes (address : UInt16) (byte : UInt8) (rest : List UInt8) :
    (decodeOrData address byte rest).bytes =
      byte :: rest.take ((decodeOrData address byte rest).size - 1) := by
  rcases decodeOrData_cases address byte rest with ⟨operands, _, taken, decoded⟩ | decoded
  · rw [decoded]
    exact congrArg (byte :: ·) (takeOperands_take taken)
  · rw [decoded]
    rfl

theorem text_dataByte (address : UInt16) (byte : UInt8) :
    (dataByte address byte).text = ".byte $" ++ Hex.byte byte :=
  rfl

theorem text_documented {byte : UInt8} (legal : (Opcode.ofByte byte).isIllegal = false)
    (address : UInt16) (operands : UInt8 × UInt8) :
    (documented address byte operands).text =
      (Opcode.ofByte byte).mnemonic.text ++ (documented address byte operands).operandText :=
  if_neg (Bool.not_eq_true _ ▸ legal)

theorem text_documented_ne_dataByte {byte : UInt8} (legal : (Opcode.ofByte byte).isIllegal = false)
    (address : UInt16) (operands : UInt8 × UInt8) (other : UInt8) :
    (documented address byte operands).text ≠ (dataByte address other).text := by
  intro same
  rw [text_documented legal, text_dataByte] at same
  obtain ⟨first, letters, starts, notDot⟩ := (Opcode.ofByte byte).mnemonic.text_starts
  have characters := congrArg String.toList same
  rw [String.toList_append, String.toList_append, starts, List.cons_append] at characters
  exact notDot (List.cons.inj characters).1

theorem documented_of_text {address : UInt16} {byte other : UInt8} {rest others : List UInt8}
    {operands otherOperands : UInt8 × UInt8}
    (legal : (Opcode.ofByte byte).isIllegal = false)
    (otherLegal : (Opcode.ofByte other).isIllegal = false)
    (taken : takeOperands (Opcode.ofByte byte).mode.operandLength rest = some operands)
    (otherTaken : takeOperands (Opcode.ofByte other).mode.operandLength others =
      some otherOperands)
    (same : (documented address byte operands).text =
      (documented address other otherOperands).text) :
    byte = other ∧ operands = otherOperands := by
  rw [text_documented legal, text_documented otherLegal] at same
  have characters := congrArg String.toList same
  simp only [String.toList_append] at characters
  -- All names are of one length, so that equal texts have equal names and equal operands.
  obtain ⟨names, texts⟩ := List.append_inj characters
    ((Mnemonic.length_text _).trans (Mnemonic.length_text _).symm)
  have mnemonic := Mnemonic.text_injective (String.toList_inj.mp names)
  have text := String.toList_inj.mp texts
  have mode : (Opcode.ofByte byte).mode = (Opcode.ofByte other).mode := by
    -- The outline of an operand tells its mode, but for branches, which their names tell.
    apply AddressingMode.outline_injective
    · have outlines := congrArg Hex.outline text
      simp only [outline_operandText] at outlines
      exact String.toList_inj.mp outlines
    · rw [Opcode.mode_relative_iff, Opcode.mode_relative_iff, mnemonic]
  have bytes : byte = other :=
    Opcode.ofByte_injective legal (by
      cases opcode : Opcode.ofByte byte
      cases otherOpcode : Opcode.ofByte other
      simp_all)
  subst bytes
  obtain ⟨low, high⟩ := operands_of_operandText (documented address byte operands)
    (documented address byte otherOperands) rfl rfl text
  have unused := takeOperands_unused taken
  have otherUnused := takeOperands_unused otherTaken
  refine ⟨rfl, Prod.ext ?_ ?_⟩
  · by_cases used : 1 ≤ (Opcode.ofByte byte).mode.operandLength
    · exact low used
    · rw [unused.1 (by omega), otherUnused.1 (by omega)]
  · by_cases used : 2 ≤ (Opcode.ofByte byte).mode.operandLength
    · exact high used
    · rw [unused.2 (by omega), otherUnused.2 (by omega)]

/-- At one address no two instructions print alike, and data prints like nothing else. -/
theorem decodeOrData_of_text {address : UInt16} {byte other : UInt8} {rest others : List UInt8}
    (same : (decodeOrData address byte rest).text = (decodeOrData address other others).text) :
    decodeOrData address byte rest = decodeOrData address other others := by
  rcases decodeOrData_cases address byte rest with ⟨operands, legal, taken, decoded⟩ | decoded
  · rcases decodeOrData_cases address other others with
      ⟨otherOperands, otherLegal, otherTaken, otherDecoded⟩ | otherDecoded
    · rw [decoded, otherDecoded] at same ⊢
      obtain ⟨rfl, rfl⟩ := documented_of_text legal otherLegal taken otherTaken same
      rfl
    · rw [decoded, otherDecoded] at same
      exact absurd same (text_documented_ne_dataByte legal _ _ _)
  · rcases decodeOrData_cases address other others with
      ⟨otherOperands, otherLegal, _, otherDecoded⟩ | otherDecoded
    · rw [decoded, otherDecoded] at same
      exact absurd same.symm (text_documented_ne_dataByte otherLegal _ _ _)
    · rw [decoded, otherDecoded, text_dataByte, text_dataByte, String.append_right_inj] at same
      rw [decoded, otherDecoded, Hex.byte_injective same]

theorem decode_cons_eq {address : UInt16} {byte : UInt8} {rest : List UInt8}
    {decoded : Instruction} (found : decode address (byte :: rest) = some decoded) :
    decodeOrData address byte rest = decoded := by
  rw [decodeOrData, found]
  rfl

theorem disassemble_induction {motive : UInt16 → List UInt8 → Prop}
    (nil : ∀ address, motive address [])
    (cons : ∀ address byte rest,
      motive (address + UInt16.ofNat (decodeOrData address byte rest).size)
        (rest.drop ((decodeOrData address byte rest).size - 1)) →
      motive address (byte :: rest))
    (address : UInt16) (bytes : List UInt8) : motive address bytes :=
  disassembleOnto.induct (motive := fun _ address bytes => motive address bytes)
    (fun _ address => nil address)
    (fun _ address byte rest onward => cons address byte rest onward) [] address bytes

theorem bytes_disassemble (address : UInt16) (bytes : List UInt8) :
    (disassemble address bytes).flatMap Instruction.bytes = bytes := by
  induction address, bytes using disassemble_induction with
  | nil address => rw [disassemble_nil, List.flatMap_nil]
  | cons address byte rest ih =>
      rw [disassemble_cons, List.flatMap_cons, ih, decodeOrData_bytes, List.cons_append,
        List.take_append_drop]

theorem disassemble_of_texts {address : UInt16} {left right : List UInt8}
    (same : (disassemble address left).map text = (disassemble address right).map text) :
    disassemble address left = disassemble address right := by
  induction address, left using disassemble_induction generalizing right with
  | nil address =>
      rw [disassemble_nil, List.map_nil, eq_comm, List.map_eq_nil_iff] at same
      rw [same, disassemble_nil]
  | cons address byte rest ih =>
      rcases right with _ | ⟨other, others⟩
      · simp [disassemble_nil, disassemble_cons] at same
      · simp only [disassemble_cons, List.map_cons, List.cons.injEq] at same
        have first := decodeOrData_of_text same.1
        have onward := same.2
        rw [← first] at onward
        rw [disassemble_cons, disassemble_cons, ← first, ih onward]

/-- Bytes can be told from the texts of their instructions: no two instructions print alike at
one address, and a byte whose instruction is cut off prints like no other byte. -/
theorem disassembly_lossless (address : UInt16) :
    (∀ left right : List UInt8,
      (disassemble address left).map text = (disassemble address right).map text ↔
        left = right) ∧
    (∀ left right : List UInt8, ∀ first second,
      decode address left = some first → decode address right = some second →
        (first.text = second.text ↔ first = second)) ∧
    (∀ byte rest, decode address (byte :: rest) = none →
      (decodeOrData address byte rest).text = ".byte $" ++ Hex.byte byte ∧
        ∀ other others,
          (decodeOrData address other others).text = ".byte $" ++ Hex.byte byte →
            other = byte ∧ (decodeOrData address other others).isData = true) := by
  refine ⟨fun left right => ⟨fun same => ?_, fun same => by rw [same]⟩,
    fun left right first second found otherFound => ⟨fun same => ?_, fun same => by rw [same]⟩,
    fun byte rest cut => ?_⟩
  · -- Equal texts come from equal instructions, which give their bytes back.
    rw [← bytes_disassemble address left, disassemble_of_texts same, bytes_disassemble]
  · rcases left with _ | ⟨byte, rest⟩
    · simp [decode] at found
    · rcases right with _ | ⟨other, others⟩
      · simp [decode] at otherFound
      · rw [← decode_cons_eq found, ← decode_cons_eq otherFound] at same ⊢
        exact decodeOrData_of_text same
  · have data : decodeOrData address byte rest = dataByte address byte := by
      rw [decodeOrData, cut]
      rfl
    refine ⟨by rw [data, text_dataByte], fun other others same => ?_⟩
    have instruction : decodeOrData address other others = dataByte address byte := by
      rw [← data]
      apply decodeOrData_of_text
      rw [same, data, text_dataByte]
    have opcode := (List.cons.inj (decodeOrData_bytes address other others)).1
    rw [instruction] at opcode ⊢
    exact ⟨opcode.symm, rfl⟩

theorem disassembly_lossless_at_end :
    (documented 0xFFF0 0xF0 (0x7F, 0)).text ≠ (documented 0xFFF0 0xF0 (0x80, 0)).text ∧
      decode 0xFFF0 [0xAD, 0xEA] = none ∧
      (decodeOrData 0xFFF0 0xAD [0xEA]).text = ".byte $AD" ∧
      (disassemble 0xFFF0 [0xAD, 0xEA]).map text ≠
        (disassemble 0xFFF0 [0xAD, 0xEA, 0x00]).map text := by
  have lossless := disassembly_lossless 0xFFF0
  refine ⟨?_, rfl, (lossless.2.2 0xAD [0xEA] rfl).1, ?_⟩
  · rw [ne_eq, lossless.2.1 [0xF0, 0x7F] [0xF0, 0x80] (documented 0xFFF0 0xF0 (0x7F, 0))
      (documented 0xFFF0 0xF0 (0x80, 0)) rfl rfl]
    decide
  · rw [ne_eq, lossless.1]
    decide

end Instruction

end Nmos6502
