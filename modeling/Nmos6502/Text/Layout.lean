/-!
Text set in a field of a given width, where a short text is filled out and a long one is left as
it is unless it is cut on purpose, and binary floating-point numbers written with two decimal
places. Such a number is taken at its exact value, a whole multiple of a power of two, and
rounded once; a half goes to the even neighbour.
-/

namespace Nmos6502.Field

def fill (filler : Char) (count : Nat) : String :=
  String.ofList (List.replicate count filler)

def padRight (text : String) (width : Nat) : String :=
  text ++ fill ' ' (width - text.length)

def padLeft (text : String) (width : Nat) : String :=
  fill ' ' (width - text.length) ++ text

/-- An odd filler goes to the right. -/
def center (filler : Char) (text : String) (width : Nat) : String :=
  let missing := width - text.length
  fill filler (missing / 2) ++ text ++ fill filler (missing - missing / 2)

def cut (text : String) (width : Nat) : String :=
  String.ofList (text.toList.take width)

end Nmos6502.Field

namespace Nmos6502.Hundredths

def roundHalfEven (numerator denominator : Nat) : Nat :=
  let floor := numerator / denominator
  let twice := 2 * (numerator % denominator)
  if twice < denominator then floor
  else if denominator < twice then floor + 1
  else floor + floor % 2

theorem roundHalfEven_near (numerator denominator : Nat) (positive : 0 < denominator) :
    2 * (roundHalfEven numerator denominator * denominator) ≤ 2 * numerator + denominator ∧
      2 * numerator ≤ 2 * (roundHalfEven numerator denominator * denominator) + denominator := by
  have split := Nat.div_add_mod numerator denominator
  have small := Nat.mod_lt numerator positive
  rw [Nat.mul_comm] at split
  simp only [roundHalfEven]
  split
  · omega
  · split
    · rw [Nat.add_mul, Nat.one_mul]
      omega
    · have half : numerator / denominator % 2 = 0 ∨ numerator / denominator % 2 = 1 := by omega
      rcases half with even | odd
      · rw [even]
        simp only [Nat.add_zero]
        omega
      · rw [odd, Nat.add_mul, Nat.one_mul]
        omega

theorem roundHalfEven_tie (numerator denominator : Nat)
    (tie : 2 * (numerator % denominator) = denominator) :
    roundHalfEven numerator denominator % 2 = 0 := by
  simp only [roundHalfEven, tie, Nat.lt_irrefl, if_false]
  omega

theorem roundHalfEven_exact {denominator : Nat} (positive : 0 < denominator) (value : Nat) :
    roundHalfEven (value * denominator) denominator = value := by
  simp [roundHalfEven, Nat.mul_mod_left, Nat.mul_div_cancel value positive, positive]

theorem roundHalfEven_mul_right (numerator denominator : Nat) {factor : Nat}
    (positive : 0 < factor) :
    roundHalfEven (numerator * factor) (denominator * factor) =
      roundHalfEven numerator denominator := by
  simp only [roundHalfEven, Nat.mul_div_mul_right _ _ positive, Nat.mul_mod_mul_right,
    ← Nat.mul_assoc, Nat.mul_lt_mul_right positive]

def fractionCount : Nat := 0x10000000000000

def significand (bits : UInt64) : Nat :=
  let fraction := bits.toNat % fractionCount
  if bits.toNat / fractionCount % 0x800 = 0 then fraction else fractionCount + fraction

def scale (bits : UInt64) : Nat :=
  max (bits.toNat / fractionCount % 0x800) 1

/-- The hundredths nearest to the non-negative finite number with these bits. -/
def ofBits (bits : UInt64) : Nat :=
  if 1075 ≤ scale bits then (100 * significand bits) <<< (scale bits - 1075)
  else roundHalfEven (100 * significand bits) (1 <<< (1075 - scale bits))

/-- The number with these bits, counted in the least positive one. -/
def units (bits : UInt64) : Nat :=
  significand bits <<< (scale bits - 1)

def unitsInOne : Nat := 1 <<< 1074

theorem shiftLeft_eq_mul (value count : Nat) : value <<< count = value * 1 <<< count := by
  rw [Nat.shiftLeft_eq, Nat.shiftLeft_eq, Nat.one_mul]

theorem unitsInOne_eq_mul {first second : Nat} (sum : first + second = 1074) :
    unitsInOne = 1 <<< first * 1 <<< second := by
  rw [unitsInOne, ← sum, Nat.shiftLeft_add, shiftLeft_eq_mul]

theorem one_shiftLeft_pos (count : Nat) : 0 < 1 <<< count := by
  rw [Nat.shiftLeft_eq, Nat.one_mul]
  exact Nat.two_pow_pos count

theorem unitsInOne_pos : 0 < unitsInOne :=
  one_shiftLeft_pos 1074

theorem ofBits_eq (bits : UInt64) : ofBits bits = roundHalfEven (100 * units bits) unitsInOne := by
  have positive : 1 ≤ scale bits := Nat.le_max_right _ _
  rw [ofBits, units, shiftLeft_eq_mul (significand bits), ← Nat.mul_assoc]
  split
  · rename_i large
    have split : scale bits - 1 = scale bits - 1075 + 1074 := by omega
    rw [split, Nat.shiftLeft_add 1, shiftLeft_eq_mul (1 <<< _), ← unitsInOne, ← Nat.mul_assoc,
      roundHalfEven_exact unitsInOne_pos, shiftLeft_eq_mul]
  · have split : unitsInOne = 1 <<< (1075 - scale bits) * 1 <<< (scale bits - 1) :=
      unitsInOne_eq_mul (by omega)
    have whole := unitsInOne_pos
    rw [split] at whole
    rw [split, roundHalfEven_mul_right _ _ (Nat.pos_of_mul_pos_left whole)]

/-- No more than half a hundredth is lost, and where it is just that the result is even. -/
theorem ofBits_nearest (bits : UInt64) :
    2 * (ofBits bits * unitsInOne) ≤ 2 * (100 * units bits) + unitsInOne ∧
      2 * (100 * units bits) ≤ 2 * (ofBits bits * unitsInOne) + unitsInOne ∧
      (2 * (100 * units bits % unitsInOne) = unitsInOne → ofBits bits % 2 = 0) := by
  rw [ofBits_eq]
  obtain ⟨above, below⟩ := roundHalfEven_near (100 * units bits) unitsInOne unitsInOne_pos
  exact ⟨above, below, roundHalfEven_tie (100 * units bits) unitsInOne⟩

def text (value : Float) : String :=
  let hundredths := ofBits value.toBits
  let places := hundredths % 100
  toString (hundredths / 100) ++ "." ++ toString (places / 10) ++ toString (places % 10)

end Nmos6502.Hundredths
