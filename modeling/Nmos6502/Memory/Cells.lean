/-!
A fixed number of bytes, a power of two, kept in a complete binary tree. A read and a
write take one step per level, and a write leaves the old bytes as they were. Indices
count modulo the number of bytes.
-/

namespace Nmos6502

inductive Cells : Nat → Type
  | leaf (byte : UInt8) : Cells 0
  | node {depth : Nat} (even odd : Cells depth) : Cells (depth + 1)

namespace Cells

def count : (depth : Nat) → Nat
  | 0 => 1
  | depth + 1 => 2 * count depth

theorem count_sixteen : count 16 = 0x10000 := rfl

def replicate (byte : UInt8) : (depth : Nat) → Cells depth
  | 0 => leaf byte
  | depth + 1 =>
      let half := replicate byte depth
      node half half

def get {depth : Nat} : Cells depth → Nat → UInt8
  | leaf byte, _ => byte
  | node even odd, index => if index % 2 = 0 then even.get (index / 2) else odd.get (index / 2)

def set {depth : Nat} (cells : Cells depth) (index : Nat) (byte : UInt8) : Cells depth :=
  match cells with
  | leaf _ => leaf byte
  | node even odd =>
      if index % 2 = 0 then node (even.set (index / 2) byte) odd
      else node even (odd.set (index / 2) byte)

theorem get_replicate (byte : UInt8) (depth index : Nat) :
    (replicate byte depth).get index = byte := by
  induction depth generalizing index with
  | zero => rfl
  | succ depth ih => simp [replicate, get, ih]

theorem mod_count_succ_eq_iff (first second depth : Nat) :
    first % count (depth + 1) = second % count (depth + 1) ↔
      first % 2 = second % 2 ∧ first / 2 % count depth = second / 2 % count depth := by
  rw [count, Nat.mod_mul, Nat.mod_mul]
  omega

theorem get_set {depth : Nat} (cells : Cells depth) (index query : Nat) (byte : UInt8) :
    (cells.set index byte).get query =
      if index % count depth = query % count depth then byte else cells.get query := by
  induction cells generalizing index query with
  | leaf old => simp [set, get, count, Nat.mod_one]
  | @node depth even odd evenLaw oddLaw =>
      simp only [mod_count_succ_eq_iff]
      rcases Nat.mod_two_eq_zero_or_one index with low | low <;>
        rcases Nat.mod_two_eq_zero_or_one query with lowQuery | lowQuery <;>
        simp [set, get, low, lowQuery, evenLaw, oddLaw]

theorem get_set_of_lt {depth : Nat} (cells : Cells depth) {index query : Nat} (byte : UInt8)
    (indexBound : index < count depth) (queryBound : query < count depth) :
    (cells.set index byte).get query = if index = query then byte else cells.get query := by
  rw [get_set, Nat.mod_eq_of_lt indexBound, Nat.mod_eq_of_lt queryBound]

theorem toNat_lt_count (address : UInt16) : address.toNat < count 16 :=
  address.toNat_lt

end Cells

end Nmos6502
