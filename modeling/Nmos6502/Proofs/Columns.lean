import Mathlib.Data.Nat.Digits.Defs

/-!
Calculations on numbers of several bytes, lowest byte first. They go from column to column, and
each column takes the carry that the one before has left; what holds of the carry in every column
then holds of the whole numbers.
-/

namespace Nmos6502

/-- Columns, each with what goes into it and the digit that comes out. The carries into the first
column and out of the last one are given with them. -/
inductive Ripples (base : Nat) : Nat → List (Nat × Nat) → Nat → Prop
  | nil (carry) : Ripples base carry [] carry
  | cons {carry column next rest final} : column.2 + base * next = column.1 + carry →
      Ripples base next rest final → Ripples base carry (column :: rest) final

namespace Ripples

variable {base carry middle final : Nat} {columns more : List (Nat × Nat)}

theorem append (low : Ripples base carry columns middle) (high : Ripples base middle more final) :
    Ripples base carry (columns ++ more) final := by
  induction low with
  | nil => exact high
  | cons column _ ih => exact .cons column (ih high)

theorem total (ripples : Ripples base carry columns final) :
    Nat.ofDigits base (columns.map Prod.snd) + base ^ columns.length * final =
      Nat.ofDigits base (columns.map Prod.fst) + carry := by
  induction ripples with
  | nil carry => simp
  | @cons carry column next rest final here _ ih =>
      simp only [List.map_cons, Nat.ofDigits_cons, List.length_cons]
      calc
        column.2 + base * Nat.ofDigits base (rest.map Prod.snd) + base ^ (rest.length + 1) * final
        _ = column.2 + base * (Nat.ofDigits base (rest.map Prod.snd) +
              base ^ rest.length * final) := by ring
        _ = column.2 + base * next + base * Nat.ofDigits base (rest.map Prod.fst) := by
              rw [ih]
              ring
        _ = column.1 + base * Nat.ofDigits base (rest.map Prod.fst) + carry := by
              rw [here]
              ring

end Ripples

/-- How bytes count as digits: all of them or some, each for a different value below the base. -/
structure Radix where
  base : Nat
  digit : UInt8 → Nat
  Valid : UInt8 → Prop
  one_lt_base : 1 < base
  digit_lt : ∀ byte, Valid byte → digit byte < base
  digit_injective : ∀ byte other, Valid byte → Valid other → digit byte = digit other →
    byte = other

namespace Radix

variable {radix : Radix} {bytes others : List UInt8}

def number (radix : Radix) (bytes : List UInt8) : Nat :=
  Nat.ofDigits radix.base (bytes.map radix.digit)

theorem number_lt (valid : ∀ byte ∈ bytes, radix.Valid byte) :
    radix.number bytes < radix.base ^ bytes.length := by
  have bound := Nat.ofDigits_lt_base_pow_length (l := bytes.map radix.digit) radix.one_lt_base
    (List.forall_mem_map.mpr fun byte member => radix.digit_lt byte (valid byte member))
  rwa [List.length_map] at bound

theorem number_injective (valid : ∀ byte ∈ bytes, radix.Valid byte)
    (othersValid : ∀ byte ∈ others, radix.Valid byte) (length : bytes.length = others.length)
    (same : radix.number bytes = radix.number others) : bytes = others := by
  have digits : bytes.map radix.digit = others.map radix.digit := by
    refine Nat.ofDigits_inj_of_len_eq radix.one_lt_base (by simpa using length) ?_ ?_ same
    · exact List.forall_mem_map.mpr fun byte member => radix.digit_lt byte (valid byte member)
    · exact List.forall_mem_map.mpr fun byte member =>
        radix.digit_lt byte (othersValid byte member)
  apply List.ext_getElem length
  intro place below belowOther
  have here := congrArg (·[place]?) digits
  simp only [List.getElem?_map, List.getElem?_eq_getElem below,
    List.getElem?_eq_getElem belowOther, Option.map_some, Option.some.injEq] at here
  exact radix.digit_injective _ _ (valid _ (List.getElem_mem below))
    (othersValid _ (List.getElem_mem belowOther)) here

theorem number_add {α : Type} (first second : α → UInt8) (items : List α) :
    Nat.ofDigits radix.base
        (items.map fun item => radix.digit (first item) + radix.digit (second item)) =
      radix.number (items.map first) + radix.number (items.map second) := by
  induction items with
  | nil => rfl
  | cons item rest ih =>
      simp only [number, List.map_cons, Nat.ofDigits_cons] at ih ⊢
      rw [ih]
      ring

end Radix

/-! What the last carry or borrow tells of the whole calculation. -/

theorem eq_mod_of_carry {result power total : Nat} {carry : Bool} (bound : result < power)
    (balance : result + power * carry.toNat = total) :
    result = total % power ∧ (carry = true ↔ power ≤ total) := by
  cases carry with
  | false =>
      simp only [Bool.toNat_false, Nat.mul_zero, Nat.add_zero] at balance
      subst balance
      simp [Nat.mod_eq_of_lt bound, bound]
  | true =>
      simp only [Bool.toNat_true, Nat.mul_one] at balance
      subst balance
      simp [Nat.mod_eq_of_lt bound]

theorem eq_emod_of_borrow {result power minuend subtrahend : Nat} {borrow : Bool}
    (bound : result < power)
    (balance : minuend + power * borrow.toNat = result + subtrahend) :
    (result : Int) = ((minuend : Int) - subtrahend) % (power : Int) ∧
      (borrow = false ↔ 0 ≤ (minuend : Int) - subtrahend) := by
  cases borrow with
  | false =>
      simp only [Bool.toNat_false, Nat.mul_zero, Nat.add_zero] at balance
      have difference : (minuend : Int) - subtrahend = result := by omega
      rw [difference, Int.emod_eq_of_lt (by omega) (by omega)]
      simp
  | true =>
      simp only [Bool.toNat_true, Nat.mul_one] at balance
      have difference : (minuend : Int) - subtrahend = result - power := by omega
      rw [difference, Int.sub_emod_right, Int.emod_eq_of_lt (by omega) (by omega)]
      constructor
      · rfl
      · simp
        omega

theorem eq_of_balances {augend restored power rest sum : Nat} {carry borrow : Bool}
    (augendBound : augend < power) (restoredBound : restored < power)
    (added : sum + power * carry.toNat = augend + rest)
    (undone : sum + power * borrow.toNat = restored + rest) :
    restored = augend ∧ borrow = carry := by
  cases carry <;> cases borrow <;>
    simp only [Bool.toNat_false, Bool.toNat_true, Nat.mul_zero, Nat.mul_one] at added undone
  · exact ⟨by omega, rfl⟩
  · omega
  · omega
  · exact ⟨by omega, rfl⟩

end Nmos6502
