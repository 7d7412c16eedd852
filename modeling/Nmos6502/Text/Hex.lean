/-!
Numbers in upper-case hexadecimal: bytes in two digits, words in four, and sizes
in as few digits as they need.
-/

namespace Nmos6502.Hex

def digit (value : Nat) : Char :=
  if value < 10 then Char.ofNat (48 + value) else Char.ofNat (55 + value)

def byteDigits (value : UInt8) : List Char :=
  [digit (value.toNat / 16), digit (value.toNat % 16)]

def byte (value : UInt8) : String :=
  String.ofList (byteDigits value)

def word (value : UInt16) : String :=
  byte (value >>> 8).toUInt8 ++ byte value.toUInt8

def digitValue? (digit : Char) : Option Nat :=
  if digit.isDigit then some (digit.toNat - 48)
  else if 'A' ≤ digit ∧ digit ≤ 'F' then some (digit.toNat - 55)
  else if 'a' ≤ digit ∧ digit ≤ 'f' then some (digit.toNat - 87)
  else none

def natural (value : Nat) : String :=
  String.ofList ((Nat.toDigits 16 value).map Char.toUpper)

theorem byteDigits_length (value : UInt8) : (byteDigits value).length = 2 := rfl

theorem byte_length (value : UInt8) : (byte value).length = 2 := by
  simp [byte, byteDigits]

theorem word_length (value : UInt16) : (word value).length = 4 := by
  simp [word, byte_length, String.length_append]

theorem digit_injective {left right : Nat} (leftBound : left < 16) (rightBound : right < 16)
    (same : digit left = digit right) : left = right := by
  have decided : ∀ first < 16, ∀ second < 16, digit first = digit second → first = second := by
    decide
  exact decided left leftBound right rightBound same

theorem digitValue?_digit {value : Nat} (bound : value < 16) :
    digitValue? (digit value) = some value := by
  have decided : ∀ value < 16, digitValue? (digit value) = some value := by decide
  exact decided value bound

theorem byteDigits_injective {left right : UInt8} (same : byteDigits left = byteDigits right) :
    left = right := by
  simp only [byteDigits, List.cons.injEq, and_true] at same
  have leftBound := left.toNat_lt
  have rightBound := right.toNat_lt
  have high := digit_injective (by omega) (by omega) same.1
  have low := digit_injective (by omega) (by omega) same.2
  exact UInt8.toNat_inj.mp (by omega)

end Nmos6502.Hex
