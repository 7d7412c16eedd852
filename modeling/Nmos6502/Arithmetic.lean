import Nmos6502.Registers

/-!
Adding and subtracting with carry. In decimal mode each nibble counts as a digit: the
result is corrected digit by digit, V and Z still describe the binary operation, and N
after an addition is the top bit of the high digit before its correction.
-/

namespace Nmos6502

structure Sum where
  result : UInt8
  carry : Bool
  overflow : Bool
  zero : Bool
  negative : Bool
  deriving DecidableEq, Repr

namespace Sum

/-- Overflow means that the operands share a sign which the result does not have. -/
def binary (augend addend : UInt8) (carry : Bool) : Sum :=
  let total := augend.toNat + addend.toNat + carry.toNat
  let result := UInt8.ofNat total
  { result
    carry := 255 < total
    overflow := (augend ^^^ result) &&& (addend ^^^ result) &&& 0x80 != 0
    zero := result == 0
    negative := result &&& 0x80 != 0 }

/-- A digit above nine carries on by skipping the six codes that are no digits. -/
def correctDigit (digit : Nat) : Nat :=
  if 9 < digit then digit + 6 else digit

def decimalAdd (augend addend : UInt8) (carry : Bool) : Sum :=
  let low := correctDigit (augend.toNat % 16 + addend.toNat % 16 + carry.toNat)
  let high := augend.toNat / 16 + addend.toNat / 16 + (if 15 < low then 1 else 0)
  let corrected := correctDigit high
  { binary augend addend carry with
    result := UInt8.ofNat (corrected * 16 + low % 16)
    carry := 15 < corrected
    negative := high / 8 % 2 == 1 }

def borrowDigit (digit : Int) : Int :=
  if digit < 0 then digit - 6 else digit

def decimalSubtract (minuend subtrahend : UInt8) (carry : Bool) : Sum :=
  let low : Int := minuend.toNat % 16 - subtrahend.toNat % 16 - (!carry).toNat
  let high : Int := minuend.toNat / 16 - subtrahend.toNat / 16 - (if low < 0 then 1 else 0)
  { binary minuend (~~~subtrahend) carry with
    result := UInt8.ofNat ((borrowDigit high % 16).toNat * 16 + (borrowDigit low % 16).toNat) }

def add (decimal : Bool) (augend addend : UInt8) (carry : Bool) : Sum :=
  if decimal then decimalAdd augend addend carry else binary augend addend carry

def subtract (decimal : Bool) (minuend subtrahend : UInt8) (carry : Bool) : Sum :=
  if decimal then decimalSubtract minuend subtrahend carry
  else binary minuend (~~~subtrahend) carry

theorem binary_total (augend addend : UInt8) (carry : Bool) :
    (binary augend addend carry).result.toNat + 256 * (binary augend addend carry).carry.toNat =
      augend.toNat + addend.toNat + carry.toNat := by
  have augendBound := augend.toNat_lt
  have addendBound := addend.toNat_lt
  have carryBound := carry.toNat_le
  simp only [binary, UInt8.toNat_ofNat']
  by_cases large : 255 < augend.toNat + addend.toNat + carry.toNat
  · simp only [large, decide_true, Bool.toNat_true]
    omega
  · simp only [large, decide_false, Bool.toNat_false]
    omega

end Sum

namespace Registers

def accept (registers : Registers) (sum : Sum) : Registers :=
  { registers with
    a := sum.result
    status := { registers.status with
      carry := sum.carry, overflow := sum.overflow, zero := sum.zero, negative := sum.negative } }

def add (registers : Registers) (value : UInt8) : Registers :=
  registers.accept
    (Sum.add registers.status.decimal registers.a value registers.status.carry)

def subtract (registers : Registers) (value : UInt8) : Registers :=
  registers.accept
    (Sum.subtract registers.status.decimal registers.a value registers.status.carry)

def compare (registers : Registers) (register value : UInt8) : Registers :=
  { registers with
    status := { registers.status.describe (register - value) with
      carry := decide (value ≤ register) } }

def testBits (registers : Registers) (value : UInt8) : Registers :=
  { registers with
    status := { registers.status with
      zero := registers.a &&& value == 0
      negative := value &&& 0x80 != 0
      overflow := value &&& 0x40 != 0 } }

end Registers

end Nmos6502
