import Nmos6502.Proofs.CarryChain

/-!
Numbers of several bytes in plain binary, without a sign and in two's complement, as ADC and SBC
add and subtract them when D is clear.
-/

namespace Nmos6502

def Radix.binary : Radix where
  base := 256
  digit := UInt8.toNat
  Valid _ := True
  one_lt_base := by decide
  digit_lt byte _ := byte.toNat_lt
  digit_injective _ _ _ _ same := UInt8.toNat_inj.mp same

def signedOf (bytes : List UInt8) : Int :=
  if 256 ^ bytes.length ≤ 2 * Radix.binary.number bytes then
    (Radix.binary.number bytes : Int) - 256 ^ bytes.length
  else Radix.binary.number bytes

def Fits (count : Nat) (value : Int) : Prop :=
  -256 ^ count ≤ 2 * value ∧ 2 * value < 256 ^ count

namespace Radix

theorem number_nil : binary.number [] = 0 := rfl

theorem number_cons (low : UInt8) (rest : List UInt8) :
    binary.number (low :: rest) = low.toNat + 256 * binary.number rest :=
  Nat.ofDigits_cons

end Radix

theorem signedOf_singleton (byte : UInt8) :
    signedOf [byte] = if 128 ≤ byte.toNat then (byte.toNat : Int) - 256 else byte.toNat := by
  rw [signedOf, Radix.number_cons, Radix.number_nil]
  by_cases high : 128 ≤ byte.toNat
  · rw [if_pos high, if_pos (by simp; omega)]
    rfl
  · rw [if_neg high, if_neg (by simp; omega)]
    rfl

theorem even_power {count : Nat} (positive : 0 < count) : ∃ half, 256 ^ count = 2 * half :=
  (show 2 ∣ 256 by decide).trans (dvd_pow_self 256 (by omega))

theorem high_succ {count low : Nat} (positive : 0 < count) (lowBound : low < 256) (value : Nat) :
    256 ^ (count + 1) ≤ 2 * (low + 256 * value) ↔ 256 ^ count ≤ 2 * value := by
  obtain ⟨half, even⟩ := even_power positive
  rw [Nat.pow_succ, even]
  omega

theorem testBit_high {count value : Nat} (positive : 0 < count) (bound : value < 256 ^ count) :
    value.testBit (8 * count - 1) = true ↔ 256 ^ count ≤ 2 * value := by
  have power : 256 ^ count = 2 ^ (8 * count - 1) * 2 := by
    rw [← Nat.pow_succ, show (8 * count - 1).succ = 8 * count by omega, Nat.pow_mul]
  rw [power] at bound ⊢
  rw [Nat.testBit_eq_decide_div_mod_eq, decide_eq_true_iff]
  constructor
  · intro set
    by_contra low
    rw [Nat.div_eq_of_lt (by omega)] at set
    exact absurd set (by decide)
  · intro high
    have one : value / 2 ^ (8 * count - 1) = 1 :=
      Nat.div_eq_of_lt_le (by omega) (by omega)
    rw [one]

theorem signedOf_cons (low : UInt8) {rest : List UInt8} (more : rest ≠ []) :
    signedOf (low :: rest) = low.toNat + 256 * signedOf rest := by
  have high := high_succ (List.length_pos_iff.mpr more) low.toNat_lt (Radix.binary.number rest)
  rw [signedOf, signedOf, Radix.number_cons, List.length_cons]
  by_cases set : 256 ^ rest.length ≤ 2 * Radix.binary.number rest
  · rw [if_pos set, if_pos (high.mpr set)]
    push_cast
    ring
  · rw [if_neg set, if_neg (set ∘ high.mp)]
    push_cast
    rfl

theorem fits_one (value : Int) : Fits 1 value ↔ -128 ≤ value ∧ value < 128 := by
  rw [Fits]
  omega

theorem fits_succ {count low : Nat} (positive : 0 < count) (lowBound : low < 256) (value : Int) :
    Fits (count + 1) (low + 256 * value) ↔ Fits count value := by
  obtain ⟨half, even⟩ := even_power positive
  have integers : (256 : Int) ^ count = 2 * half := by exact_mod_cast even
  rw [Fits, Fits, pow_succ, integers]
  omega

theorem signedOf_complement {bytes : List UInt8} (some : bytes ≠ []) :
    signedOf (bytes.map (~~~·)) = -1 - signedOf bytes := by
  induction bytes with
  | nil => exact absurd rfl some
  | cons low rest ih =>
      have lowBound := low.toNat_lt
      have complement : (~~~low).toNat = 255 - low.toNat := by
        exact UInt8.toNat_not low
      by_cases more : rest = []
      · subst more
        rw [List.map_cons, List.map_nil, signedOf_singleton, signedOf_singleton, complement]
        split_ifs <;> omega
      · rw [List.map_cons, signedOf_cons _ more, signedOf_cons _ (by simpa using more), ih more,
          complement]
        omega

/-! One byte. -/

/-- As the formula of the overflow flag has it: the operands agree in sign, but not with the
result. -/
theorem Sum.overflow_signs (augend addend : UInt8) (carry : Bool) :
    (binary augend addend carry).overflow = true ↔
      (128 ≤ augend.toNat ↔ 128 ≤ addend.toNat) ∧
        ¬(128 ≤ augend.toNat ↔ 128 ≤ (binary augend addend carry).result.toNat) := by
  have topBit (byte : UInt8) : byte.toNat.testBit 7 = decide (128 ≤ byte.toNat) := by
    have bound := byte.toNat_lt
    rw [Nat.testBit_eq_decide_div_mod_eq, decide_eq_decide]
    omega
  have masked := Status.highBit_iff
    ((augend ^^^ (binary augend addend carry).result) &&&
      (addend ^^^ (binary augend addend carry).result))
  rw [← decide_eq_true_iff (p := 128 ≤ _), ← topBit, UInt8.toNat_and, UInt8.toNat_xor,
    UInt8.toNat_xor, Nat.testBit_and, Nat.testBit_xor, Nat.testBit_xor, topBit, topBit, topBit]
    at masked
  refine Iff.trans masked ?_
  by_cases first : 128 ≤ augend.toNat <;> by_cases second : 128 ≤ addend.toNat <;>
    simp [first, second]

theorem Sum.overflow_iff (augend addend : UInt8) (carry : Bool) :
    (binary augend addend carry).overflow = true ↔
      ¬Fits 1 (signedOf [augend] + signedOf [addend] + carry.toNat) := by
  have total := binary_total augend addend carry
  have augendBound := augend.toNat_lt
  have addendBound := addend.toNat_lt
  have resultBound := (binary augend addend carry).result.toNat_lt
  have carryBound := carry.toNat_le
  have carryOut := (binary augend addend carry).carry.toNat_le
  rw [overflow_signs, fits_one, signedOf_singleton, signedOf_singleton]
  by_cases first : 128 ≤ augend.toNat <;> by_cases second : 128 ≤ addend.toNat <;>
    simp only [first, second, if_true, if_false, true_iff, false_iff, true_and, false_and,
      not_not, not_true_eq_false] <;> omega

theorem Sum.binary_adds : Radix.binary.Adds (Sum.add false) where
  valid _ _ _ _ _ := trivial
  balance augend addend carry _ _ := binary_total augend addend carry

theorem Sum.binary_subtracts : Radix.binary.Subtracts (Sum.subtract false) where
  valid _ _ _ _ _ := trivial
  balance minuend subtrahend ready _ _ := by
    have total := binary_total minuend (~~~subtrahend) ready
    have bound := subtrahend.toNat_lt
    have complement (flag : Bool) : (!flag).toNat = 1 - flag.toNat := by cases flag <;> rfl
    have readyBound := ready.toNat_le
    have carryBound := (binary minuend (~~~subtrahend) ready).carry.toNat_le
    rw [UInt8.toNat_not, UInt8.size] at total
    change minuend.toNat + 256 * (!(binary minuend (~~~subtrahend) ready).carry).toNat =
      (binary minuend (~~~subtrahend) ready).result.toNat + subtrahend.toNat + (!ready).toNat
    rw [complement, complement]
    omega

/-! A whole chain. -/

namespace Cpu

variable {β : Type} [Bus β] {mnemonic : Mnemonic} {status final : Status} {cpus : List (Cpu β)}

/-- Each processor adds a value of its own, which may be an operand or its complement. -/
def AddsEach (addend : Cpu β → UInt8) (cpus : List (Cpu β)) : Prop :=
  ∀ cpu ∈ cpus, cpu.step.2.registers = cpu.advancedRegisters.accept
    (Sum.binary cpu.registers.a (addend cpu) cpu.registers.status.carry)

theorem Chain.adds_operands (chain : Chain .adc false status cpus final) :
    AddsEach operandValue cpus := by
  intro cpu member
  obtain ⟨aboutTo, mode⟩ := chain.forall_mem cpu member
  rw [aboutTo.registers_adc, mode]
  rfl

theorem Chain.adds_complements (chain : Chain .sbc false status cpus final) :
    AddsEach (fun cpu => ~~~cpu.operandValue) cpus := by
  intro cpu member
  obtain ⟨aboutTo, mode⟩ := chain.forall_mem cpu member
  rw [aboutTo.registers_sbc, mode]
  rfl

theorem Chain.overflow_iff {addend : Cpu β → UInt8}
    (chain : Chain mnemonic false status cpus final) (some : cpus ≠ [])
    (adds : AddsEach addend cpus) :
    final.overflow = true ↔ ¬Fits cpus.length
      (signedOf (accumulators cpus) + signedOf (cpus.map addend) + status.carry.toNat) := by
  induction chain with
  | nil => exact absurd rfl some
  | @cons status cpu rest final _ _ carry chain ih =>
      obtain ⟨here, later⟩ := List.forall_mem_cons.mp adds
      rw [← carry]
      by_cases more : rest = []
      · subst more
        cases chain
        rw [here]
        exact Sum.overflow_iff _ _ _
      -- The low byte goes into its own result and a carry, so that the rest of the chain has to fit.
      · have total := Sum.binary_total cpu.registers.a (addend cpu) cpu.registers.status.carry
        have passed : signedOf (accumulators (cpu :: rest)) + signedOf ((cpu :: rest).map addend) +
              cpu.registers.status.carry.toNat =
            (Sum.binary cpu.registers.a (addend cpu) cpu.registers.status.carry).result.toNat +
              256 * (signedOf (accumulators rest) + signedOf (rest.map addend) +
                cpu.step.2.registers.status.carry.toNat) := by
          rw [accumulators, List.map_cons, List.map_cons, signedOf_cons _ (by simpa using more),
            signedOf_cons _ (by simpa using more), here]
          simp only [Registers.accept, accumulators]
          omega
        rw [ih more later, passed, List.length_cons,
          fits_succ (List.length_pos_iff.mpr more) (UInt8.toNat_lt _)]

theorem Chain.negative_iff {addend : Cpu β → UInt8}
    (chain : Chain mnemonic false status cpus final) (some : cpus ≠ [])
    (adds : AddsEach addend cpus) :
    final.negative = true ↔
      256 ^ cpus.length ≤ 2 * Radix.binary.number (resultBytes cpus) := by
  induction chain with
  | nil => exact absurd rfl some
  | @cons status cpu rest final _ _ _ chain ih =>
      obtain ⟨here, later⟩ := List.forall_mem_cons.mp adds
      rw [resultBytes, List.map_cons, Radix.number_cons, List.length_cons]
      by_cases more : rest = []
      · subst more
        cases chain
        have described := Status.highBit_iff cpu.resultByte
        rw [List.map_nil, Radix.number_nil, List.length_nil]
        rw [resultByte, here] at described ⊢
        refine Iff.trans described ?_
        omega
      · rw [ih more later, high_succ (List.length_pos_iff.mpr more) (UInt8.toNat_lt _)]
        rfl

theorem Chain.negative_eq {addend : Cpu β → UInt8}
    (chain : Chain mnemonic false status cpus final) (some : cpus ≠ [])
    (adds : AddsEach addend cpus) :
    final.negative = (Radix.binary.number (resultBytes cpus)).testBit (8 * cpus.length - 1) := by
  have bound : Radix.binary.number (resultBytes cpus) < 256 ^ (resultBytes cpus).length :=
    Radix.number_lt fun _ _ => trivial
  rw [length_resultBytes] at bound
  rw [Bool.eq_iff_iff, testBit_high (List.length_pos_iff.mpr some) bound]
  exact chain.negative_iff some adds

/-- A chain of additions or subtractions in binary is exact, without a sign by its last carry and
in two's complement by its last V and N. -/
theorem binary_chain_exact (cpus : List (Cpu β)) (some : cpus ≠ []) (status final : Status) :
    (Chain .adc false status cpus final →
      Sums .binary cpus status.carry final ∧
      (final.overflow = true ↔ ¬Fits cpus.length
        (signedOf (accumulators cpus) + signedOf (operandValues cpus) + status.carry.toNat)) ∧
      final.negative = (Radix.binary.number (resultBytes cpus)).testBit (8 * cpus.length - 1) ∧
      ∀ (undoing : List (Cpu β)) (start last : Status), Chain .sbc false start undoing last →
        accumulators undoing = resultBytes cpus → operandValues undoing = operandValues cpus →
        start.carry = (!status.carry) →
        resultBytes undoing = accumulators cpus ∧ last.carry = !final.carry) ∧
    (Chain .sbc false status cpus final →
      Differences .binary cpus status.carry final ∧
      (final.overflow = true ↔ ¬Fits cpus.length
        (signedOf (accumulators cpus) - signedOf (operandValues cpus) - (!status.carry).toNat)) ∧
      final.negative =
        (Radix.binary.number (resultBytes cpus)).testBit (8 * cpus.length - 1)) := by
  have digits (cpus : List (Cpu β)) : Digits .binary cpus := fun _ _ => ⟨trivial, trivial⟩
  constructor
  · intro chain
    refine ⟨chain.sums Sum.binary_adds (digits cpus), chain.overflow_iff some chain.adds_operands,
      chain.negative_eq some chain.adds_operands, ?_⟩
    intro undoing start last undo results operands carry
    exact chain.restores Sum.binary_adds Sum.binary_subtracts undo (digits cpus) results operands
      carry
  · intro chain
    refine ⟨chain.differences Sum.binary_subtracts (digits cpus), ?_,
      chain.negative_eq some chain.adds_complements⟩
    have operands : cpus.map (fun cpu => ~~~cpu.operandValue) = (operandValues cpus).map (~~~·) :=
      (List.map_map ..).symm
    have complement : signedOf ((operandValues cpus).map (~~~·)) =
        -1 - signedOf (operandValues cpus) := signedOf_complement (by simpa [operandValues])
    have borrow : (status.carry.toNat : Int) = 1 - (!status.carry).toNat := by
      cases status.carry <;> rfl
    rw [chain.overflow_iff some chain.adds_complements, operands, complement, borrow]
    ring_nf

def overflowingWords : Cpu FlatMemory :=
  wordSums false [0xF0, 0x12] [0x20, 0x6E]

theorem overflowingWords_adds :
    Chain .adc false (overflowingWords.after 1).registers.status overflowingWords.adding
      (overflowingWords.after 6).registers.status := by
  refine .cons ⟨?_, ?_, ?_⟩ ?_ ?_ (.cons ⟨?_, ?_, ?_⟩ ?_ ?_ (.nil _)) <;> decide +kernel

theorem overflowingWords_subtracts :
    Chain .sbc false (overflowingWords.after 8).registers.status overflowingWords.subtracting
      (overflowingWords.after 12).registers.status := by
  refine .cons ⟨?_, ?_, ?_⟩ ?_ ?_ (.cons ⟨?_, ?_, ?_⟩ ?_ ?_ (.nil _)) <;> decide +kernel

theorem overflowingWords_exact :
    Sums .binary overflowingWords.adding false (overflowingWords.after 6).registers.status ∧
      accumulators overflowingWords.adding = [0xF0, 0x12] ∧
      operandValues overflowingWords.adding = [0x20, 0x6E] ∧
      ¬Fits 2 (signedOf [0xF0, 0x12] + signedOf [0x20, 0x6E] + (0 : Nat)) ∧
      Differences .binary overflowingWords.subtracting true
        (overflowingWords.after 12).registers.status ∧
      resultBytes overflowingWords.subtracting = [0xF0, 0x12] ∧
      (overflowingWords.after 12).registers.status.carry = true := by
  have augend : accumulators overflowingWords.adding = [0xF0, 0x12] := by decide +kernel
  have addend : operandValues overflowingWords.adding = [0x20, 0x6E] := by decide +kernel
  have clear : (overflowingWords.after 6).registers.status.carry = false := by decide +kernel
  obtain ⟨sums, overflow, _, restores⟩ :=
    (binary_chain_exact overflowingWords.adding (by simp [adding]) _ _).1 overflowingWords_adds
  obtain ⟨restored, carry⟩ := restores overflowingWords.subtracting _ _
    overflowingWords_subtracts (by decide +kernel) (by decide +kernel) (by decide +kernel)
  obtain ⟨differences, _, _⟩ := (binary_chain_exact overflowingWords.subtracting
    (by simp [subtracting]) _ _).2 overflowingWords_subtracts
  rw [augend, addend] at overflow
  rw [augend] at restored
  rw [clear] at carry
  exact ⟨sums, augend, addend, overflow.mp (by decide +kernel), differences, restored, carry⟩

end Cpu

end Nmos6502
