import Nmos6502.Proofs.CarryChain

/-!
Numbers of several bytes in packed decimal, two digits in each, as ADC and SBC add and subtract
them when D is set.
-/

namespace Nmos6502

def Radix.decimal : Radix where
  base := 100
  digit byte := 10 * (byte.toNat / 16) + byte.toNat % 16
  Valid byte := byte.toNat / 16 ≤ 9 ∧ byte.toNat % 16 ≤ 9
  one_lt_base := by decide
  digit_lt byte valid := by
    obtain ⟨high, low⟩ := valid
    omega
  digit_injective byte other valid otherValid same := by
    obtain ⟨high, low⟩ := valid
    obtain ⟨otherHigh, otherLow⟩ := otherValid
    apply UInt8.toNat_inj.mp
    omega

instance (byte : UInt8) : Decidable (Radix.decimal.Valid byte) :=
  inferInstanceAs (Decidable (byte.toNat / 16 ≤ 9 ∧ byte.toNat % 16 ≤ 9))

namespace Sum

/-! One digit. -/

theorem correctDigit_balance {total : Nat} (bound : total ≤ 19) :
    correctDigit total % 16 ≤ 9 ∧
      correctDigit total % 16 + 10 * (if 15 < correctDigit total then 1 else 0) = total := by
  rw [correctDigit]
  by_cases carries : 9 < total
  · rw [if_pos carries, if_pos (by omega)]
    omega
  · rw [if_neg carries, if_neg (by omega)]
    omega

theorem borrowDigit_balance {total : Int} (lower : -10 ≤ total) (upper : total ≤ 9) :
    (borrowDigit total % 16).toNat ≤ 9 ∧
      total + 10 * (if total < 0 then 1 else 0) = (borrowDigit total % 16).toNat := by
  rw [borrowDigit]
  by_cases borrows : total < 0
  · rw [if_pos borrows, if_pos borrows]
    omega
  · rw [if_neg borrows, if_neg borrows]
    omega

/-! One byte. -/

theorem packed {high low : Nat} (highDigit : high % 16 ≤ 9) (lowDigit : low ≤ 9) :
    Radix.decimal.Valid (UInt8.ofNat (high * 16 + low)) ∧
      Radix.decimal.digit (UInt8.ofNat (high * 16 + low)) = 10 * (high % 16) + low := by
  have value : (UInt8.ofNat (high * 16 + low)).toNat = high % 16 * 16 + low := by
    rw [UInt8.toNat_ofNat']
    omega
  simp only [Radix.decimal, value]
  omega

theorem decimalAdd_balance (augend addend : UInt8) (carry : Bool)
    (augendValid : Radix.decimal.Valid augend) (addendValid : Radix.decimal.Valid addend) :
    Radix.decimal.Valid (decimalAdd augend addend carry).result ∧
      Radix.decimal.digit (decimalAdd augend addend carry).result +
          100 * (decimalAdd augend addend carry).carry.toNat =
        Radix.decimal.digit augend + Radix.decimal.digit addend + carry.toNat := by
  obtain ⟨augendHigh, augendLow⟩ := augendValid
  obtain ⟨addendHigh, addendLow⟩ := addendValid
  have carryBound := carry.toNat_le
  -- Digit by digit, as on paper: the low one passes its carry to the high one.
  let low := correctDigit (augend.toNat % 16 + addend.toNat % 16 + carry.toNat)
  let passed := if 15 < low then 1 else 0
  let high := correctDigit (augend.toNat / 16 + addend.toNat / 16 + passed)
  have passedBound : passed ≤ 1 := by
    change (if 15 < low then 1 else 0) ≤ 1
    split <;> omega
  have carried : (decimalAdd augend addend carry).carry.toNat = if 15 < high then 1 else 0 := by
    change (decide (15 < high)).toNat = _
    split <;> simp [*]
  obtain ⟨lowDigit, lowBalance⟩ : low % 16 ≤ 9 ∧ low % 16 + 10 * passed = _ :=
    correctDigit_balance (by omega)
  obtain ⟨highDigit, highBalance⟩ :
      high % 16 ≤ 9 ∧ high % 16 + 10 * (if 15 < high then 1 else 0) = _ :=
    correctDigit_balance (by omega)
  obtain ⟨valid, value⟩ := packed highDigit lowDigit
  refine ⟨valid, ?_⟩
  calc
    Radix.decimal.digit (decimalAdd augend addend carry).result +
        100 * (decimalAdd augend addend carry).carry.toNat
    _ = 10 * (high % 16) + low % 16 + 100 * (if 15 < high then 1 else 0) := by
          rw [carried, ← value]
          rfl
    _ = 10 * (augend.toNat / 16) + augend.toNat % 16 +
          (10 * (addend.toNat / 16) + addend.toNat % 16) + carry.toNat := by omega

/-- Among packed numbers the order of the bytes is the order of the values, so that the carry of
the binary subtraction tells of a borrow in the decimal one. -/
theorem decimalSubtract_carry (minuend subtrahend : UInt8) (carry : Bool)
    (minuendValid : Radix.decimal.Valid minuend)
    (subtrahendValid : Radix.decimal.Valid subtrahend) :
    (decimalSubtract minuend subtrahend carry).carry = true ↔
      Radix.decimal.digit subtrahend + (!carry).toNat ≤ Radix.decimal.digit minuend := by
  obtain ⟨minuendHigh, minuendLow⟩ := minuendValid
  obtain ⟨subtrahendHigh, subtrahendLow⟩ := subtrahendValid
  have bound := subtrahend.toNat_lt
  have complement := UInt8.toNat_not subtrahend
  rw [UInt8.size] at complement
  change decide (255 < minuend.toNat + (~~~subtrahend).toNat + carry.toNat) = true ↔
    10 * (subtrahend.toNat / 16) + subtrahend.toNat % 16 + (!carry).toNat ≤
      10 * (minuend.toNat / 16) + minuend.toNat % 16
  rw [decide_eq_true_iff, complement]
  cases carry <;> simp only [Bool.not_true, Bool.not_false, Bool.toNat_true, Bool.toNat_false] <;>
    omega

theorem decimalSubtract_balance (minuend subtrahend : UInt8) (carry : Bool)
    (minuendValid : Radix.decimal.Valid minuend)
    (subtrahendValid : Radix.decimal.Valid subtrahend) :
    Radix.decimal.Valid (decimalSubtract minuend subtrahend carry).result ∧
      Radix.decimal.digit minuend +
          100 * (!(decimalSubtract minuend subtrahend carry).carry).toNat =
        Radix.decimal.digit (decimalSubtract minuend subtrahend carry).result +
          Radix.decimal.digit subtrahend + (!carry).toNat := by
  have borrows := decimalSubtract_carry minuend subtrahend carry minuendValid subtrahendValid
  obtain ⟨minuendHigh, minuendLow⟩ := minuendValid
  obtain ⟨subtrahendHigh, subtrahendLow⟩ := subtrahendValid
  have readyBound := (!carry).toNat_le
  -- The digits borrow from each other, but the carry comes from the binary subtraction.
  let low : Int := minuend.toNat % 16 - subtrahend.toNat % 16 - (!carry).toNat
  let passed : Int := if low < 0 then 1 else 0
  let high : Int := minuend.toNat / 16 - subtrahend.toNat / 16 - passed
  have passedBound : 0 ≤ passed ∧ passed ≤ 1 := by
    change 0 ≤ (if low < 0 then (1 : Int) else 0) ∧ (if low < 0 then (1 : Int) else 0) ≤ 1
    split <;> omega
  obtain ⟨lowDigit, lowBalance⟩ :
      (borrowDigit low % 16).toNat ≤ 9 ∧ low + 10 * passed = (borrowDigit low % 16).toNat :=
    borrowDigit_balance (by omega) (by omega)
  obtain ⟨highDigit, highBalance⟩ := borrowDigit_balance (show -10 ≤ high by omega) (by omega)
  obtain ⟨valid, value⟩ :=
    packed (show (borrowDigit high % 16).toNat % 16 ≤ 9 by omega) lowDigit
  have nonnegative : (decimalSubtract minuend subtrahend carry).carry = true ↔ ¬high < 0 := by
    refine borrows.trans ?_
    change 10 * (subtrahend.toNat / 16) + subtrahend.toNat % 16 + (!carry).toNat ≤
      10 * (minuend.toNat / 16) + minuend.toNat % 16 ↔ _
    omega
  have borrowed : ((!(decimalSubtract minuend subtrahend carry).carry).toNat : Int) =
      if high < 0 then 1 else 0 := by
    split
    · next below => rw [Bool.eq_false_iff.mpr (mt nonnegative.mp (not_not.mpr below))]; rfl
    · next above => rw [nonnegative.mpr above]; rfl
  rw [← borrowed] at highBalance
  have difference : Radix.decimal.digit (decimalSubtract minuend subtrahend carry).result =
      10 * (borrowDigit high % 16).toNat + (borrowDigit low % 16).toNat := by
    rw [Nat.mod_eq_of_lt (by omega)] at value
    exact value
  have lowIs : low = minuend.toNat % 16 - subtrahend.toNat % 16 - (!carry).toNat := rfl
  have highIs : high = minuend.toNat / 16 - subtrahend.toNat / 16 - passed := rfl
  refine ⟨valid, ?_⟩
  rw [difference]
  change 10 * (minuend.toNat / 16) + minuend.toNat % 16 + _ =
    _ + (10 * (subtrahend.toNat / 16) + subtrahend.toNat % 16) + _
  omega

theorem decimal_adds : Radix.decimal.Adds (Sum.add true) where
  valid augend addend carry augendValid addendValid :=
    (decimalAdd_balance augend addend carry augendValid addendValid).1
  balance augend addend carry augendValid addendValid :=
    (decimalAdd_balance augend addend carry augendValid addendValid).2

theorem decimal_subtracts : Radix.decimal.Subtracts (Sum.subtract true) where
  valid minuend subtrahend carry minuendValid subtrahendValid :=
    (decimalSubtract_balance minuend subtrahend carry minuendValid subtrahendValid).1
  balance minuend subtrahend carry minuendValid subtrahendValid :=
    (decimalSubtract_balance minuend subtrahend carry minuendValid subtrahendValid).2

end Sum

namespace Cpu

/-- A chain of additions or subtractions in decimal mode is exact for packed digits, and leaves
packed digits. -/
theorem decimal_chain_exact {β : Type} [Bus β] (cpus : List (Cpu β))
    (digits : Digits .decimal cpus) (status final : Status) :
    (Chain .adc true status cpus final →
      Sums .decimal cpus status.carry final ∧
      ∀ (undoing : List (Cpu β)) (start last : Status), Chain .sbc true start undoing last →
        accumulators undoing = resultBytes cpus → operandValues undoing = operandValues cpus →
        start.carry = (!status.carry) →
        resultBytes undoing = accumulators cpus ∧ last.carry = !final.carry) ∧
    (Chain .sbc true status cpus final → Differences .decimal cpus status.carry final) := by
  constructor
  · intro chain
    refine ⟨chain.sums Sum.decimal_adds digits, ?_⟩
    intro undoing start last undo results operands carry
    exact chain.restores Sum.decimal_adds Sum.decimal_subtracts undo digits results operands carry
  · intro chain
    exact chain.differences Sum.decimal_subtracts digits

def carryingDigits : Cpu FlatMemory :=
  wordSums true [0x99, 0x12] [0x01, 0x90]

theorem carryingDigits_adds :
    Chain .adc true (carryingDigits.after 1).registers.status carryingDigits.adding
      (carryingDigits.after 6).registers.status := by
  refine .cons ⟨?_, ?_, ?_⟩ ?_ ?_ (.cons ⟨?_, ?_, ?_⟩ ?_ ?_ (.nil _)) <;> decide +kernel

theorem carryingDigits_subtracts :
    Chain .sbc true (carryingDigits.after 8).registers.status carryingDigits.subtracting
      (carryingDigits.after 12).registers.status := by
  refine .cons ⟨?_, ?_, ?_⟩ ?_ ?_ (.cons ⟨?_, ?_, ?_⟩ ?_ ?_ (.nil _)) <;> decide +kernel

theorem carryingDigits_exact :
    Sums .decimal carryingDigits.adding false (carryingDigits.after 6).registers.status ∧
      Radix.decimal.number (accumulators carryingDigits.adding) = 1299 ∧
      Radix.decimal.number (operandValues carryingDigits.adding) = 9001 ∧
      (carryingDigits.after 6).registers.status.carry = true ∧
      Differences .decimal carryingDigits.subtracting true
        (carryingDigits.after 12).registers.status ∧
      resultBytes carryingDigits.subtracting = [0x99, 0x12] ∧
      (carryingDigits.after 12).registers.status.carry = false := by
  have added : accumulators carryingDigits.adding = [0x99, 0x12] ∧
      operandValues carryingDigits.adding = [0x01, 0x90] := by decide +kernel
  have carried : (carryingDigits.after 6).registers.status.carry = true := by decide +kernel
  have digits : Digits .decimal carryingDigits.adding := by
    refine List.forall_mem_cons.mpr ⟨?_, List.forall_mem_singleton.mpr ?_⟩ <;> decide +kernel
  have undoneDigits : Digits .decimal carryingDigits.subtracting := by
    refine List.forall_mem_cons.mpr ⟨?_, List.forall_mem_singleton.mpr ?_⟩ <;> decide +kernel
  obtain ⟨sums, restores⟩ := (decimal_chain_exact carryingDigits.adding digits _ _).1
    carryingDigits_adds
  obtain ⟨restored, carry⟩ := restores carryingDigits.subtracting _ _ carryingDigits_subtracts
    (by decide +kernel) (by decide +kernel) (by decide +kernel)
  have differences := (decimal_chain_exact carryingDigits.subtracting undoneDigits _ _).2
    carryingDigits_subtracts
  rw [added.1] at restored
  rw [carried] at carry
  rw [added.1, added.2]
  exact ⟨sums, by decide, by decide, carried, differences, restored, carry⟩

end Cpu

end Nmos6502
