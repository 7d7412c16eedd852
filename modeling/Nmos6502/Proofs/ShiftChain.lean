import Mathlib.Data.List.Nodup
import Nmos6502.Proofs.Shifts

/-!
Shifts and rotations of numbers of several bytes, each byte by an instruction of its own. The bit
that leaves one byte waits in C until it enters the next one, so that a number can be moved to the
left from its lowest byte up, and to the right from its highest byte down.
-/

namespace Nmos6502

def Shift.pass (first later : Shift) : List Place → List (Shift × Place)
  | [] => []
  | place :: rest => (first, place) :: pass later later rest

theorem Shift.pass_places (first later : Shift) (places : List Place) :
    (pass first later places).map Prod.snd = places := by
  induction places generalizing first with
  | nil => rfl
  | cons place rest ih => rw [pass, List.map_cons, ih]

namespace Cpu

/-- Some places keep their bytes, and C is passed on. -/
structure Passes (places : List Place) (before after : Cpu FlatMemory) : Prop where
  carry : after.registers.status.carry = before.registers.status.carry
  values : ∀ place ∈ places, after.valueAt place = before.valueAt place

/-- The processor comes to some shifts in turn, each at its own place. What else it executes before,
between and after them passes the places. -/
inductive Relay (places : List Place) :
    List (Shift × Place) → Cpu FlatMemory → Cpu FlatMemory → Prop
  | nil {start final} : Passes places start final → Relay places [] start final
  | cons {start cpu final shift rest} : Passes places start cpu →
      cpu.AboutTo (Shift.mnemonic shift) → Relay places rest cpu.step.2 final →
      Relay places ((shift, cpu.nextOperand.place) :: rest) start final

variable {places rest : List Place} {place : Place} {tasks : List (Shift × Place)}
  {first : Shift} {start final : Cpu FlatMemory}

theorem Relay.elsewhere (relay : Relay places tasks start final) (among : place ∈ places)
    (apart : place ∉ tasks.map Prod.snd) : final.valueAt place = start.valueAt place := by
  induction relay with
  | nil passes => exact passes.values place among
  | cons passes aboutTo _ ih =>
      rw [List.map_cons, List.mem_cons, not_or] at apart
      rw [ih apart.2, aboutTo.shifted.elsewhere place apart.1, passes.values place among]

theorem Relay.leads {later : Shift}
    (relay : Relay places (Shift.pass first later (place :: rest)) start final)
    (among : place :: rest ⊆ places) (distinct : (place :: rest).Nodup) :
    ∃ (status : Status) (next : Cpu FlatMemory),
      first.entering status = first.entering start.registers.status ∧
      final.valueAt place = (first.transform status (start.valueAt place)).1 ∧
      next.registers.status.carry = (first.transform status (start.valueAt place)).2.carry ∧
      (∀ other ∈ rest, next.valueAt other = start.valueAt other) ∧
      Relay places (Shift.pass later later rest) next final := by
  rw [List.cons_subset] at among
  rw [List.nodup_cons] at distinct
  cases relay with
  | @cons _ cpu _ _ _ passes aboutTo relay =>
      have shifted := aboutTo.shifted
      have here := passes.values _ among.1
      refine ⟨cpu.registers.status, cpu.step.2, first.entering_congr passes.carry, ?_, ?_, ?_,
        relay⟩
      · have apart := distinct.1
        rw [← Shift.pass_places later later rest] at apart
        rw [relay.elsewhere among.1 apart, shifted.value, here]
      · rw [shifted.status, here]
      · intro other member
        rw [shifted.elsewhere other (ne_of_mem_of_not_mem member distinct.1),
          passes.values other (among.2 member)]

theorem Relay.left (direction : first = .asl ∨ first = .rol)
    (relay : Relay places (Shift.pass first .rol (place :: rest)) start final)
    (among : place :: rest ⊆ places) (distinct : (place :: rest).Nodup) :
    Ripples 256 (first.entering start.registers.status).toNat
      ((place :: rest).map fun place =>
        (2 * (start.valueAt place).toNat, (final.valueAt place).toNat))
      final.registers.status.carry.toNat := by
  induction rest generalizing place first start with
  | nil =>
      obtain ⟨status, next, entering, moved, out, _, later⟩ := relay.leads among distinct
      have balance := Shift.left_balance direction status (start.valueAt place)
      cases later with
      | nil passes =>
          rw [← moved, ← out, entering, ← passes.carry] at balance
          exact .cons balance (.nil _)
  | cons another more ih =>
      obtain ⟨status, next, entering, moved, out, kept, later⟩ := relay.leads among distinct
      have balance := Shift.left_balance direction status (start.valueAt place)
      rw [← moved, ← out, entering] at balance
      have ripples := ih (.inr rfl) later (List.cons_subset.mp among).2 distinct.of_cons
      rw [List.map_congr_left fun place member => by rw [kept place member]] at ripples
      exact .cons balance ripples

/-- To the right, each byte passes its low bit on to the one below, so that the columns, counted
from the lowest byte, carry what leaves the number to what enters it. -/
theorem Relay.right (direction : first = .lsr ∨ first = .ror)
    (relay : Relay places (Shift.pass first .ror (place :: rest)) start final)
    (among : place :: rest ⊆ places) (distinct : (place :: rest).Nodup) :
    Ripples 256 final.registers.status.carry.toNat
      ((place :: rest).reverse.map fun place =>
        (2 * (final.valueAt place).toNat, (start.valueAt place).toNat))
      (first.entering start.registers.status).toNat := by
  induction rest generalizing place first start with
  | nil =>
      obtain ⟨status, next, entering, moved, out, _, later⟩ := relay.leads among distinct
      have balance := Shift.right_balance direction status (start.valueAt place)
      cases later with
      | nil passes =>
          rw [← moved, ← out, entering, ← passes.carry] at balance
          exact .cons balance (.nil _)
  | cons another more ih =>
      obtain ⟨status, next, entering, moved, out, kept, later⟩ := relay.leads among distinct
      have balance := Shift.right_balance direction status (start.valueAt place)
      rw [← moved, ← out, entering] at balance
      have ripples := ih (.inr rfl) later (List.cons_subset.mp among).2 distinct.of_cons
      rw [List.map_congr_left fun place member => by
        rw [kept place (List.mem_reverse.mp member)]] at ripples
      -- The highest byte is the first to be shifted and the last to be counted.
      rw [List.reverse_cons, List.map_append]
      exact ripples.append (.cons balance (.nil _))

/-! The whole number. -/

theorem numberAt_eq (cpu : Cpu FlatMemory) (places : List Place) :
    cpu.numberAt places = Nat.ofDigits 256 (places.map fun place => (cpu.valueAt place).toNat) := by
  rw [numberAt, valuesAt, Radix.number, List.map_map]
  rfl

theorem twice_numberAt (cpu : Cpu FlatMemory) (places : List Place) :
    Nat.ofDigits 256 (places.map fun place => 2 * (cpu.valueAt place).toNat) =
      2 * cpu.numberAt places := by
  rw [numberAt_eq, Nat.mul_ofDigits, List.map_map]
  rfl

theorem numberAt_lt (cpu : Cpu FlatMemory) (places : List Place) :
    cpu.numberAt places < 256 ^ places.length := by
  have bound : cpu.numberAt places < 256 ^ (cpu.valuesAt places).length :=
    Radix.number_lt fun _ _ => trivial
  rwa [valuesAt, List.length_map] at bound

theorem Relay.left_balance (direction : first = .asl ∨ first = .rol)
    (relay : Relay places (Shift.pass first .rol places) start final) (some : places ≠ [])
    (distinct : places.Nodup) :
    final.numberAt places + 256 ^ places.length * final.registers.status.carry.toNat =
      2 * start.numberAt places + (first.entering start.registers.status).toNat := by
  obtain ⟨place, rest, rfl⟩ := List.exists_cons_of_ne_nil some
  have total := (relay.left direction (List.Subset.refl _) distinct).total
  rw [List.map_map, List.map_map, List.length_map] at total
  rw [numberAt_eq final, ← twice_numberAt]
  exact total

theorem Relay.right_balance (direction : first = .lsr ∨ first = .ror)
    (relay : Relay places (Shift.pass first .ror places.reverse) start final) (some : places ≠ [])
    (distinct : places.Nodup) :
    start.numberAt places + 256 ^ places.length * (first.entering start.registers.status).toNat =
      2 * final.numberAt places + final.registers.status.carry.toNat := by
  obtain ⟨place, rest, order⟩ :=
    List.exists_cons_of_ne_nil (mt List.reverse_eq_nil_iff.mp some)
  have among : place :: rest ⊆ places := by
    rw [← order]
    exact List.reverse_subset.mpr (List.Subset.refl _)
  rw [order] at relay
  have total := (relay.right direction among (order ▸ List.nodup_reverse.mpr distinct)).total
  rw [← order, List.reverse_reverse, List.map_map, List.map_map, List.length_map] at total
  rw [numberAt_eq start, ← twice_numberAt]
  exact total

def wordAt (cpu : Cpu FlatMemory) (places : List Place) : BitVec (8 * places.length + 1) :=
  .cons cpu.registers.status.carry (.ofNat (8 * places.length) (cpu.numberAt places))

theorem power_eq (count : Nat) : 2 ^ (8 * count) = 256 ^ count :=
  Nat.pow_mul 2 8 count

theorem toNat_wordAt (cpu : Cpu FlatMemory) (places : List Place) :
    (cpu.wordAt places).toNat =
      cpu.numberAt places + 256 ^ places.length * cpu.registers.status.carry.toNat := by
  have bound := cpu.numberAt_lt places
  rw [wordAt, BitVec.toNat_cons', BitVec.toNat_ofNat, power_eq, Nat.mod_eq_of_lt bound,
    Nat.shiftLeft_eq, power_eq, Nat.mul_comm, Nat.add_comm]

theorem wordAt_rotateLeft (some : places ≠ [])
    (balance : final.numberAt places + 256 ^ places.length * final.registers.status.carry.toNat =
      2 * start.numberAt places + start.registers.status.carry.toNat) :
    final.wordAt places = (start.wordAt places).rotateLeft 1 := by
  have length := List.length_pos_iff.mpr some
  have bound := start.numberAt_lt places
  have carryBound := start.registers.status.carry.toNat_lt
  have kept : (start.numberAt places + 256 ^ places.length *
      start.registers.status.carry.toNat) * 2 % (256 ^ places.length * 2) =
        2 * start.numberAt places := by
    rw [Nat.mul_mod_mul_right, Nat.add_mul_mod_self_left, Nat.mod_eq_of_lt bound, Nat.mul_comm]
  have moved : (start.numberAt places + 256 ^ places.length *
      start.registers.status.carry.toNat) / 256 ^ places.length =
        start.registers.status.carry.toNat := by
    rw [Nat.add_mul_div_left _ _ (by omega), Nat.div_eq_of_lt bound, Nat.zero_add]
  have joined := Nat.two_pow_add_eq_or_of_lt (i := 1) (b := start.registers.status.carry.toNat)
    carryBound (start.numberAt places)
  have once : 1 % (8 * places.length + 1) = 1 := Nat.mod_eq_of_lt (by omega)
  apply BitVec.eq_of_toNat_eq
  rw [BitVec.toNat_rotateLeft, once, Nat.add_sub_cancel, toNat_wordAt,
    toNat_wordAt, Nat.shiftLeft_eq, Nat.shiftRight_eq_div_pow, Nat.pow_one, Nat.pow_succ, power_eq,
    kept, moved, balance]
  exact joined

theorem Relay.undone {last : Cpu FlatMemory}
    (relay : Relay places (Shift.pass .rol .rol places) start final)
    (undo : Relay places (Shift.pass .ror .ror places.reverse) final last) (some : places ≠ [])
    (distinct : places.Nodup) : Passes places start last := by
  have left := relay.left_balance (.inr rfl) some distinct
  have right := undo.right_balance (.inr rfl) some distinct
  simp only [Shift.entering] at left right
  have carryBound := start.registers.status.carry.toNat_lt
  have lastBound := last.registers.status.carry.toNat_lt
  constructor
  · have same : last.registers.status.carry.toNat = start.registers.status.carry.toNat := by omega
    rw [Bool.eq_iff_iff, ← Bool.toNat_eq_one, ← Bool.toNat_eq_one, same]
  · have same : Radix.binary.number (last.valuesAt places) =
        Radix.binary.number (start.valuesAt places) := by
      change last.numberAt places = start.numberAt places
      omega
    have values := Radix.number_injective (fun _ _ => trivial) (fun _ _ => trivial)
      (by simp [valuesAt]) same
    exact List.map_inj_left.mp values

end Cpu

end Nmos6502
