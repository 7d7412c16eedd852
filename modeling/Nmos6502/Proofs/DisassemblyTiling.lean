import Nmos6502.Proofs.LosslessText

/-!
The entries of a disassembly tile its bytes: each stands at the address of its first byte and is
read from the bytes that are left there. Past a place where no instruction is cut off reading
goes on as if it had begun there.
-/

namespace Nmos6502.Instruction

structure Reads (entry : Instruction) (here : UInt16) (left : List UInt8) : Prop where
  address : entry.address = here
  opcode : left.head? = some entry.opcode
  decoded : decode here left = some entry ∨
    decode here left = none ∧ entry = dataByte here entry.opcode
  isData_iff : entry.isData = true ↔
    (Opcode.ofByte entry.opcode).isIllegal = true ∨
      left.length < (Opcode.ofByte entry.opcode).size
  data : entry.isData = true → entry = dataByte here entry.opcode

/-- Some byte stands for itself although a documented instruction starts with it. -/
def cutsOff (address : UInt16) (bytes : List UInt8) : Bool :=
  (disassemble address bytes).any fun entry =>
    entry.isData && !(Opcode.ofByte entry.opcode).isIllegal

theorem takeOperands_eq_none_iff (mode : AddressingMode) (rest : List UInt8) :
    takeOperands mode.operandLength rest = none ↔ rest.length < mode.operandLength := by
  have few := mode.instructionLength_bounds.2
  rw [AddressingMode.instructionLength] at few
  generalize mode.operandLength = count at few ⊢
  rcases count with _ | _ | _ | count
  · simp [takeOperands]
  · rcases rest with _ | ⟨low, rest⟩ <;> simp [takeOperands]
  · rcases rest with _ | ⟨low, _ | ⟨high, rest⟩⟩ <;> simp [takeOperands]
  · omega

theorem takeOperands_append {count : Nat} {rest : List UInt8} {operands : UInt8 × UInt8}
    (taken : takeOperands count rest = some operands) (more : List UInt8) :
    takeOperands count (rest ++ more) = some operands := by
  rcases count with _ | _ | _ | count
  · exact taken
  · rcases rest with _ | ⟨low, rest⟩
    · simp [takeOperands] at taken
    · exact taken
  · rcases rest with _ | ⟨low, _ | ⟨high, rest⟩⟩
    · simp [takeOperands] at taken
    · simp [takeOperands] at taken
    · exact taken
  · simp [takeOperands] at taken

theorem size_ofByte (byte : UInt8) :
    (Opcode.ofByte byte).size = (Opcode.ofByte byte).mode.operandLength + 1 :=
  rfl

section

variable (address : UInt16) (byte : UInt8) (rest : List UInt8)

theorem decode_cases :
    ((Opcode.ofByte byte).isIllegal = true ∧
      decode address (byte :: rest) = some (dataByte address byte)) ∨
    ((Opcode.ofByte byte).isIllegal = false ∧
      rest.length + 1 < (Opcode.ofByte byte).size ∧ decode address (byte :: rest) = none) ∨
    ∃ operands, (Opcode.ofByte byte).isIllegal = false ∧
      (Opcode.ofByte byte).size ≤ rest.length + 1 ∧
      takeOperands (Opcode.ofByte byte).mode.operandLength rest = some operands ∧
      decode address (byte :: rest) = some (documented address byte operands) := by
  have cut := takeOperands_eq_none_iff (Opcode.ofByte byte).mode rest
  rw [size_ofByte]
  rcases illegal : (Opcode.ofByte byte).isIllegal with _ | _
  · right
    rcases taken : takeOperands (Opcode.ofByte byte).mode.operandLength rest with _ | operands
    · left
      exact ⟨rfl, Nat.succ_lt_succ (cut.mp taken), by simp [decode, illegal, taken]⟩
    · right
      have enough : ¬rest.length < (Opcode.ofByte byte).mode.operandLength := by
        rw [← cut, taken]
        simp
      exact ⟨operands, rfl, Nat.succ_le_succ (Nat.le_of_not_lt enough), rfl,
        by simp [decode, illegal, taken, documented]⟩
  · left
    exact ⟨rfl, by simp [decode, illegal]⟩

theorem reads_decodeOrData :
    (decodeOrData address byte rest).Reads address (byte :: rest) := by
  rcases decode_cases address byte rest with ⟨illegal, found⟩ | ⟨legal, short, cut⟩ |
    ⟨operands, legal, enough, _, found⟩
  · rw [decodeOrData, found]
    exact ⟨rfl, rfl, .inl found, ⟨fun _ => .inl illegal, fun _ => rfl⟩, fun _ => rfl⟩
  · rw [decodeOrData, cut]
    exact ⟨rfl, rfl, .inr ⟨cut, rfl⟩, ⟨fun _ => .inr short, fun _ => rfl⟩, fun _ => rfl⟩
  · rw [decodeOrData, found]
    have instruction : (documented address byte operands).isData = false := legal
    refine ⟨rfl, rfl, .inl found, ?_, ?_⟩
    · rw [Option.getD_some, instruction]
      refine ⟨by simp, fun untold => ?_⟩
      rcases untold with illegal | short
      · exact absurd (legal.symm.trans illegal) (by decide)
      · exact absurd short (Nat.not_lt.mpr enough)
    · simp [instruction]

theorem size_decodeOrData :
    1 ≤ (decodeOrData address byte rest).size ∧
      (decodeOrData address byte rest).size ≤ rest.length + 1 := by
  have data : (dataByte address byte).size = 1 := rfl
  rcases decode_cases address byte rest with ⟨_, found⟩ | ⟨_, _, cut⟩ |
    ⟨operands, _, enough, _, found⟩
  · rw [decodeOrData, found, Option.getD_some, data]
    omega
  · rw [decodeOrData, cut, Option.getD_none, data]
    omega
  · rw [decodeOrData, found]
    exact ⟨(Opcode.size_bounds _).1, enough⟩

theorem length_bytes_decodeOrData :
    (decodeOrData address byte rest).bytes.length = (decodeOrData address byte rest).size := by
  have bounds := size_decodeOrData address byte rest
  rw [decodeOrData_bytes, List.length_cons, List.length_take]
  omega

theorem decodeOrData_append (more : List UInt8)
    (whole : (decodeOrData address byte rest).isData = true →
      (Opcode.ofByte byte).isIllegal = true) :
    decodeOrData address byte (rest ++ more) = decodeOrData address byte rest := by
  rcases decode_cases address byte rest with ⟨illegal, found⟩ | ⟨legal, _, cut⟩ |
    ⟨operands, legal, _, taken, found⟩
  · simp [decodeOrData, decode, illegal]
  · rw [decodeOrData, cut] at whole
    exact absurd (legal.symm.trans (whole rfl)) (by decide)
  · simp [decodeOrData, decode, legal, taken, takeOperands_append taken more]

end

theorem reads_of_disassemble {start : UInt16} {bytes : List UInt8}
    {earlier later : List Instruction} {entry : Instruction}
    (split : disassemble start bytes = earlier ++ entry :: later) :
    entry.Reads (start + UInt16.ofNat (earlier.flatMap Instruction.bytes).length)
      (bytes.drop (earlier.flatMap Instruction.bytes).length) := by
  induction earlier generalizing start bytes with
  | nil =>
      rcases bytes with _ | ⟨byte, rest⟩
      · simp [disassemble_nil] at split
      · rw [disassemble_cons, List.nil_append, List.cons.injEq] at split
        rw [← split.1, List.flatMap_nil, List.length_nil, List.drop_zero]
        simpa using reads_decodeOrData start byte rest
  | cons first earlier ih =>
      rcases bytes with _ | ⟨byte, rest⟩
      · simp [disassemble_nil] at split
      · rw [disassemble_cons, List.cons_append, List.cons.injEq] at split
        have later := ih split.2
        have sized := length_bytes_decodeOrData start byte rest
        have one := (size_decodeOrData start byte rest).1
        -- The first byte has been passed with the instruction that it starts.
        have passed : (decodeOrData start byte rest).size + (earlier.flatMap bytes).length =
            (decodeOrData start byte rest).size - 1 + (earlier.flatMap bytes).length + 1 := by
          omega
        rw [← split.1, List.flatMap_cons, List.length_append, sized, UInt16.ofNat_add,
          ← UInt16.add_assoc]
        rw [List.drop_drop] at later
        rwa [passed, List.drop_succ_cons]

theorem length_disassemble_le (start : UInt16) (bytes : List UInt8) :
    (disassemble start bytes).length ≤ bytes.length := by
  induction start, bytes using disassemble_induction with
  | nil start => simp [disassemble_nil]
  | cons start byte rest ih =>
      rw [disassemble_cons, List.length_cons, List.length_cons]
      rw [List.length_drop] at ih
      omega

theorem disassemble_append {start : UInt16} {bytes : List UInt8}
    (whole : cutsOff start bytes = false) (more : List UInt8) :
    disassemble start (bytes ++ more) =
      disassemble start bytes ++ disassemble (start + UInt16.ofNat bytes.length) more := by
  induction start, bytes using disassemble_induction with
  | nil start => simp [disassemble_nil]
  | cons start byte rest ih =>
      have bounds := size_decodeOrData start byte rest
      have opcode := (reads_decodeOrData start byte rest).opcode
      rw [List.head?_cons, Option.some.injEq] at opcode
      rw [cutsOff, disassemble_cons, List.any_cons, Bool.or_eq_false_iff] at whole
      have kept := decodeOrData_append start byte rest more (by
        intro data
        simpa [data, ← opcode] using whole.1)
      have total : (decodeOrData start byte rest).size +
          (rest.length - ((decodeOrData start byte rest).size - 1)) = rest.length + 1 := by
        omega
      have onward := ih whole.2
      rw [List.length_drop, UInt16.add_assoc, ← UInt16.ofNat_add, total] at onward
      rw [List.cons_append, disassemble_cons, disassemble_cons, kept, List.cons_append,
        List.drop_append_of_le_length (by omega), onward, List.length_cons]

/-- A disassembly consists of just the bytes that went in, at most one entry for each. Every
entry stands at the address of its first byte and is decoded from there; it is data exactly if
its opcode is undocumented or its instruction is cut off. Bytes that cut nothing off can be
disassembled apart from what follows them. -/
theorem disassembly_tiles (start : UInt16) (bytes : List UInt8) :
    (disassemble start bytes).length ≤ bytes.length ∧
    (disassemble start bytes).flatMap Instruction.bytes = bytes ∧
    (∀ earlier entry later, disassemble start bytes = earlier ++ entry :: later →
      entry.Reads (start + UInt16.ofNat (earlier.flatMap Instruction.bytes).length)
        (bytes.drop (earlier.flatMap Instruction.bytes).length)) ∧
    (cutsOff start bytes = false → ∀ more, disassemble start (bytes ++ more) =
      disassemble start bytes ++ disassemble (start + UInt16.ofNat bytes.length) more) :=
  ⟨length_disassemble_le start bytes, bytes_disassemble start bytes,
    fun _ _ _ => reads_of_disassemble, disassemble_append⟩

theorem disassembly_tiles_over_end :
    cutsOff 0xFFFE [0x8D, 0x00, 0x02, 0x02] = false ∧
      disassemble 0xFFFE [0x8D, 0x00, 0x02, 0x02, 0xAD, 0x00] =
        disassemble 0xFFFE [0x8D, 0x00, 0x02, 0x02] ++ disassemble 0x0002 [0xAD, 0x00] ∧
      cutsOff 0x0002 [0xAD, 0x00] = true ∧
      (dataByte 0x0002 0xAD).Reads 0x0002 [0xAD, 0x00] := by
  have whole : cutsOff 0xFFFE [0x8D, 0x00, 0x02, 0x02] = false := by decide +kernel
  have tiles := (disassembly_tiles 0xFFFE [0x8D, 0x00, 0x02, 0x02]).2.2.2
  have reads := (disassembly_tiles 0x0002 [0xAD, 0x00]).2.2.1 [] (dataByte 0x0002 0xAD)
    (disassemble 0x0003 [0x00]) (by decide +kernel)
  exact ⟨whole, tiles whole [0xAD, 0x00], by decide +kernel, reads⟩

end Nmos6502.Instruction
