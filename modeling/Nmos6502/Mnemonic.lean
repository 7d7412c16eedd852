/-!
The names of the documented instructions, and one name that stands for every
undocumented opcode.
-/

namespace Nmos6502

inductive Mnemonic
  | adc | and | asl | bcc | bcs | beq | bit | bmi | bne | bpl | brk | bvc | bvs | clc | cld
  | cli | clv | cmp | cpx | cpy | dec | dex | dey | eor | inc | inx | iny | jmp | jsr | lda
  | ldx | ldy | lsr | nop | ora | pha | php | pla | plp | rol | ror | rti | rts | sbc | sec
  | sed | sei | sta | stx | sty | tax | tay | tsx | txa | txs | tya | illegal
  deriving DecidableEq, Repr, Inhabited

namespace Mnemonic

def all : List Mnemonic :=
  [adc, and, asl, bcc, bcs, beq, bit, bmi, bne, bpl, brk, bvc, bvs, clc, cld, cli, clv, cmp,
   cpx, cpy, dec, dex, dey, eor, inc, inx, iny, jmp, jsr, lda, ldx, ldy, lsr, nop, ora, pha,
   php, pla, plp, rol, ror, rti, rts, sbc, sec, sed, sei, sta, stx, sty, tax, tay, tsx, txa,
   txs, tya, illegal]

theorem mem_all (mnemonic : Mnemonic) : mnemonic ∈ all := by
  cases mnemonic <;> decide

theorem all_nodup : all.Nodup := by
  decide

def text : Mnemonic → String
  | adc => "ADC" | and => "AND" | asl => "ASL" | bcc => "BCC" | bcs => "BCS" | beq => "BEQ"
  | bit => "BIT" | bmi => "BMI" | bne => "BNE" | bpl => "BPL" | brk => "BRK" | bvc => "BVC"
  | bvs => "BVS" | clc => "CLC" | cld => "CLD" | cli => "CLI" | clv => "CLV" | cmp => "CMP"
  | cpx => "CPX" | cpy => "CPY" | dec => "DEC" | dex => "DEX" | dey => "DEY" | eor => "EOR"
  | inc => "INC" | inx => "INX" | iny => "INY" | jmp => "JMP" | jsr => "JSR" | lda => "LDA"
  | ldx => "LDX" | ldy => "LDY" | lsr => "LSR" | nop => "NOP" | ora => "ORA" | pha => "PHA"
  | php => "PHP" | pla => "PLA" | plp => "PLP" | rol => "ROL" | ror => "ROR" | rti => "RTI"
  | rts => "RTS" | sbc => "SBC" | sec => "SEC" | sed => "SED" | sei => "SEI" | sta => "STA"
  | stx => "STX" | sty => "STY" | tax => "TAX" | tay => "TAY" | tsx => "TSX" | txa => "TXA"
  | txs => "TXS" | tya => "TYA" | illegal => "???"

theorem text_injective {left right : Mnemonic} (same : left.text = right.text) : left = right := by
  have checked : ∀ first ∈ all, ∀ second ∈ all, first.text = second.text → first = second := by
    decide
  exact checked left (mem_all left) right (mem_all right) same

end Mnemonic

end Nmos6502
