import Mathlib.Data.List.Induction
import Nmos6502.Proofs.ConditionLexemes

/-!
What numerals spell. A numeral is a mark of its radix, possibly none, and all the letters and
digits after it; in positional notation they spell a number, unless there are none or one of them
is no digit of the radix. The value that is read is the number spelled, and numbers beyond
sixty-four bits are turned down.
-/

namespace Nmos6502.Numeral

inductive Mark
  | unmarked
  | dollar
  | percent
  | lowerX
  | upperX

namespace Mark

def text : Mark → List Char
  | unmarked => []
  | dollar => ['$']
  | percent => ['%']
  | lowerX => ['0', 'x']
  | upperX => ['0', 'X']

def radix : Mark → Nat
  | unmarked => 10
  | dollar | lowerX | upperX => 16
  | percent => 2

theorem radix_bounds (mark : Mark) : 1 < mark.radix ∧ mark.radix ≤ 16 := by
  cases mark <;> decide

end Mark

def IsFigure (character : Char) (figure : Nat) : Prop :=
  character = Nat.digitChar figure ∨ character = (Nat.digitChar figure).toUpper

instance (character : Char) (figure : Nat) : Decidable (IsFigure character figure) :=
  inferInstanceAs (Decidable (_ ∨ _))

/-- Positional notation. Zeros in front change nothing. -/
inductive Spells (radix : Nat) : List Char → Nat → Prop
  | digit {character figure} : IsFigure character figure → figure < radix →
      Spells radix [character] figure
  | more {run value character figure} : Spells radix run value → IsFigure character figure →
      figure < radix → Spells radix (run ++ [character]) (value * radix + figure)

inductive Invalid (radix : Nat) (run : List Char) : Prop
  | nothing : run = [] → Invalid radix run
  | foreign {character} : character ∈ run → (∀ figure < radix, ¬ IsFigure character figure) →
      Invalid radix run
  | large {value} : Spells radix run value → UInt64.size ≤ value → Invalid radix run

theorem Spells.zero_cons {radix : Nat} {run : List Char} {value : Nat}
    (spells : Spells radix run value) : Spells radix ('0' :: run) value := by
  induction spells with
  | @digit character figure isFigure small =>
      have zero : Spells radix ['0'] 0 := .digit (.inl rfl) (by omega)
      simpa using zero.more isFigure small
  | more _ isFigure small ih => exact ih.more isFigure small

theorem Spells.zeros_append {radix : Nat} {run : List Char} {value : Nat}
    (spells : Spells radix run value) (zeros : Nat) :
    Spells radix (List.replicate zeros '0' ++ run) value := by
  induction zeros with
  | zero => exact spells
  | succ zeros ih => exact ih.zero_cons

theorem spells_toDigits {radix : Nat} (binary : 1 < radix) (value : Nat) :
    Spells radix (Nat.toDigits radix value) value := by
  induction value using Nat.base_induction radix binary with
  | single figure small =>
      rw [Nat.toDigits_of_lt_base small]
      exact .digit (.inl rfl) small
  | digit front figure small positive ih =>
      rw [← Nat.toDigits_append_toDigits binary positive small, Nat.toDigits_of_lt_base small,
        Nat.mul_comm]
      exact ih.more (.inl rfl) small

/-! The value that is read is the number spelled. -/

theorem ascii_forall (property : Char → Prop)
    (checked : ∀ code < 128, property (Char.ofNat code)) {character : Char}
    (ascii : character.toNat < 128) : property character := by
  rw [← Char.ofNat_toNat character]
  exact checked _ ascii

theorem toNat_lt_of_isAlphanum {character : Char} (word : character.isAlphanum = true) :
    character.toNat < 128 := by
  have code : character.toNat = character.val.toNat := rfl
  unfold Char.isAlphanum Char.isAlpha Char.isUpper Char.isLower Char.isDigit at word
  simp only [Bool.or_eq_true, Bool.and_eq_true, decide_eq_true_eq, ge_iff_le,
    UInt32.le_iff_toNat_le] at word
  simp at word
  omega

theorem figure_bounds {character : Char} {figure : Nat} (small : figure < 16)
    (isFigure : IsFigure character figure) :
    character.isAlphanum = true ∧ digitValue character = figure := by
  have checked : ∀ figure < 16,
      ((Nat.digitChar figure).isAlphanum = true ∧ digitValue (Nat.digitChar figure) = figure) ∧
      (Nat.digitChar figure).toUpper.isAlphanum = true ∧
        digitValue (Nat.digitChar figure).toUpper = figure := by
    decide
  rcases isFigure with rfl | rfl
  · exact (checked figure small).1
  · exact (checked figure small).2

theorem isFigure_digitValue {character : Char} (word : character.isAlphanum = true)
    (small : digitValue character < 16) : IsFigure character (digitValue character) := by
  have checked : ∀ code < 128, (Char.ofNat code).isAlphanum = true →
      digitValue (Char.ofNat code) < 16 →
        IsFigure (Char.ofNat code) (digitValue (Char.ofNat code)) := by
    decide +kernel
  exact ascii_forall (fun character => character.isAlphanum = true →
    digitValue character < 16 → IsFigure character (digitValue character)) checked
      (toNat_lt_of_isAlphanum word) word small

def number (radix : Nat) (run : List Char) : Nat :=
  run.foldl (fun value digit => value * radix + digitValue digit) 0

theorem number_append (radix : Nat) (run : List Char) (digit : Char) :
    number radix (run ++ [digit]) = number radix run * radix + digitValue digit := by
  rw [number, List.foldl_append]
  rfl

section

variable {radix : Nat} {run : List Char} (hexadecimal : radix ≤ 16)

include hexadecimal

theorem Spells.read {value : Nat} (spells : Spells radix run value) :
    run ≠ [] ∧ (∀ digit ∈ run, digit.isAlphanum = true ∧ digitValue digit < radix) ∧
      number radix run = value := by
  induction spells with
  | @digit character figure isFigure small =>
      obtain ⟨word, value⟩ := figure_bounds (by omega) isFigure
      simp [word, value, small, number]
  | @more run value character figure _ isFigure small ih =>
      obtain ⟨word, read⟩ := figure_bounds (by omega) isFigure
      obtain ⟨_, digits, same⟩ := ih
      refine ⟨by simp, ?_, by rw [number_append, same, read]⟩
      intro digit member
      rcases List.mem_append.mp member with early | last
      · exact digits digit early
      · rw [List.mem_singleton.mp last, read]
        exact ⟨word, small⟩

theorem spells_number (some : run ≠ [])
    (digits : ∀ digit ∈ run, digit.isAlphanum = true ∧ digitValue digit < radix) :
    Spells radix run (number radix run) := by
  induction run using List.reverseRecOn with
  | nil => exact absurd rfl some
  | append_singleton front last ih =>
      have lastDigit := digits last (by simp)
      have isFigure := isFigure_digitValue lastDigit.1 (by omega)
      rcases front with _ | ⟨first, rest⟩
      · simpa [number] using Spells.digit isFigure lastDigit.2
      · rw [number_append]
        have before := ih (by simp) fun digit member =>
          digits digit (List.mem_append_left _ member)
        exact before.more isFigure lastDigit.2

theorem value?_of_spells {value : UInt64} (spells : Spells radix run value.toNat) :
    value? radix run = some value := by
  obtain ⟨filled, digits, same⟩ := spells.read hexadecimal
  have fits : ¬ UInt64.size ≤ value.toNat := Nat.not_le.mpr value.toNat_lt
  have proper : (run.any fun digit => decide (radix ≤ digitValue digit)) = false := by
    simpa using fun digit member => (digits digit member).2
  rw [number] at same
  rw [value?, same, if_neg (by simp [filled, proper, fits]), UInt64.ofNat_toNat]

theorem value?_eq_none_iff (word : ∀ character ∈ run, character.isAlphanum = true) :
    value? radix run = none ↔ Invalid radix run := by
  have condition : value? radix run = none ↔
      run = [] ∨ (∃ digit ∈ run, radix ≤ digitValue digit) ∨ UInt64.size ≤ number radix run := by
    rw [value?, ← number, ite_eq_left_iff]
    simp only [reduceCtorEq, imp_false, not_not, List.any_eq_true, decide_eq_true_eq]
  rw [condition]
  constructor
  · intro refused
    -- With proper digits only the size can be at fault.
    by_cases proper : run ≠ [] ∧ ∀ digit ∈ run, digitValue digit < radix
    · obtain ⟨filled, small⟩ := proper
      have spells := spells_number hexadecimal filled fun digit member =>
        ⟨word digit member, small digit member⟩
      rcases refused with empty | ⟨digit, member, large⟩ | large
      · exact absurd empty filled
      · exact absurd (small digit member) (Nat.not_lt.mpr large)
      · exact .large spells large
    · by_cases empty : run = []
      · exact .nothing empty
      · simp only [ne_eq, empty, not_false_eq_true, true_and, not_forall, Nat.not_lt] at proper
        obtain ⟨digit, member, large⟩ := proper
        refine .foreign member fun figure small isFigure => ?_
        have value := (figure_bounds (by omega) isFigure).2
        omega
  · intro invalid
    cases invalid with
    | nothing empty => exact .inl empty
    | @foreign character member none =>
        refine .inr (.inl ⟨character, member, ?_⟩)
        by_contra small
        exact none _ (by omega) (isFigure_digitValue (word character member) (by omega))
    | @large value spells beyond =>
        obtain ⟨_, _, same⟩ := spells.read hexadecimal
        exact .inr (.inr (by omega))

end

/-! Where numerals stand in a text. -/

/-- A mark and all the letters and digits after it, in front of something else. Without a mark the
first of them is a digit, and they do not start like a marked numeral. -/
structure Mark.Stands (mark : Mark) (run tail : List Char) : Prop where
  word : ∀ character ∈ run, character.isAlphanum = true
  ends : ∀ next ∈ tail.head?, next.isAlphanum = false
  bare : mark = .unmarked → ∃ first rest, run = first :: rest ∧ first.isDigit = true ∧
    (first = '0' → ∀ next ∈ rest.head?, next ≠ 'x' ∧ next ≠ 'X')

theorem isDigit_of_digitValue {character : Char} (word : character.isAlphanum = true)
    (small : digitValue character < 10) : character.isDigit = true := by
  have checked : ∀ figure < 10, (Nat.digitChar figure).isDigit = true ∧
      (Nat.digitChar figure).toUpper.isDigit = true := by decide
  rcases isFigure_digitValue word (by omega) with same | same
  · exact same ▸ (checked _ small).1
  · exact same ▸ (checked _ small).2

/-- What spells a number is a numeral, whatever comes after it that is no letter or digit. -/
theorem Spells.stands {mark : Mark} {run tail : List Char} {value : Nat}
    (spells : Spells mark.radix run value)
    (ends : ∀ next ∈ tail.head?, next.isAlphanum = false) : mark.Stands run tail := by
  obtain ⟨filled, digits, _⟩ := spells.read mark.radix_bounds.2
  refine ⟨fun character member => (digits character member).1, ends, ?_⟩
  rintro rfl
  have decimal : ∀ digit ∈ run, digit.isDigit = true := fun digit member =>
    isDigit_of_digitValue (digits digit member).1 (digits digit member).2
  obtain ⟨first, rest, rfl⟩ := List.exists_cons_of_ne_nil filled
  refine ⟨first, rest, rfl, decimal first (List.mem_cons_self ..), fun _ next head => ?_⟩
  have digit := decimal next (List.mem_cons_of_mem _ (List.mem_of_mem_head? head))
  constructor <;> rintro rfl <;> exact absurd digit (by decide)

theorem Mark.Stands.radixMark_eq {mark : Mark} {run tail : List Char}
    (stands : mark.Stands run tail) :
    radixMark (mark.text ++ (run ++ tail)) = (mark.radix, mark.text.length) := by
  cases mark with
  | dollar | percent | lowerX | upperX => rfl
  | unmarked =>
      obtain ⟨first, rest, rfl, digit, apart⟩ := stands.bare rfl
      -- An unmarked numeral may start with a zero, but not with a mark.
      have unlike : first = '0' → ∀ next ∈ (rest ++ tail).head?, next ≠ 'x' ∧ next ≠ 'X' := by
        intro zero next head
        rcases rest with _ | ⟨second, later⟩
        · have other := stands.ends next head
          constructor <;> rintro rfl <;> exact absurd other (by decide)
        · exact apart zero next head
      change radixMark (first :: (rest ++ tail)) = (10, 0)
      rw [radixMark.eq_def]
      split
      · rename_i same
        cases same
        simp at digit
      · rename_i same
        cases same
        simp at digit
      · rename_i same
        obtain rfl := (List.cons.inj same).1
        exact absurd rfl (unlike rfl 'x' (by rw [(List.cons.inj same).2]; rfl)).1
      · rename_i same
        obtain rfl := (List.cons.inj same).1
        exact absurd rfl (unlike rfl 'X' (by rw [(List.cons.inj same).2]; rfl)).2
      · rfl

theorem Mark.Stands.starts {mark : Mark} {run tail : List Char} (stands : mark.Stands run tail) :
    ∃ first rest, mark.text ++ run = first :: rest ∧ Lexeme.startsNumeral first = true := by
  cases mark with
  | dollar | percent | lowerX | upperX => exact ⟨_, _, rfl, by decide⟩
  | unmarked =>
      obtain ⟨first, rest, rfl, digit, _⟩ := stands.bare rfl
      exact ⟨first, rest, rfl, by simp [Lexeme.startsNumeral, digit]⟩

theorem exists_run (text : List Char) : ∃ run tail, text = run ++ tail ∧
    (∀ character ∈ run, character.isAlphanum = true) ∧
      ∀ next ∈ tail.head?, next.isAlphanum = false := by
  refine ⟨text.takeWhile Char.isAlphanum, text.dropWhile Char.isAlphanum,
    List.takeWhile_append_dropWhile.symm, List.all_eq_true.mp List.all_takeWhile,
    fun next head => ?_⟩
  have stopped := List.head?_dropWhile_not Char.isAlphanum text
  rw [Option.mem_def.mp head] at stopped
  simpa using stopped

theorem exists_stands {first : Char} {rest : List Char}
    (starts : Lexeme.startsNumeral first = true) :
    ∃ (mark : Mark) (run tail : List Char),
      first :: rest = mark.text ++ (run ++ tail) ∧ mark.Stands run tail := by
  obtain ⟨run, tail, same, word, ends⟩ := exists_run rest
  simp only [Lexeme.startsNumeral, Bool.or_eq_true, beq_iff_eq] at starts
  rcases starts with (rfl | rfl) | digit
  · exact ⟨.dollar, run, tail, by simp [Mark.text, same], word, ends, nofun⟩
  · exact ⟨.percent, run, tail, by simp [Mark.text, same], word, ends, nofun⟩
  · by_cases marked : first = '0' ∧ ∃ next ∈ run.head?, next = 'x' ∨ next = 'X'
    · obtain ⟨rfl, next, head, letter⟩ := marked
      obtain ⟨later, rfl⟩ := List.head?_eq_some_iff.mp head
      have wordLater := fun character member => word character (List.mem_cons_of_mem next member)
      rcases letter with rfl | rfl
      · exact ⟨.lowerX, later, tail, by simp [Mark.text, same], wordLater, ends, nofun⟩
      · exact ⟨.upperX, later, tail, by simp [Mark.text, same], wordLater, ends, nofun⟩
    · refine ⟨.unmarked, first :: run, tail, by simp [Mark.text, same], ?_, ends, fun _ =>
        ⟨first, run, rfl, digit, fun zero next head => ?_⟩⟩
      · rw [List.forall_mem_cons]
        exact ⟨by simp [Char.isAlphanum, digit], word⟩
      · simp only [not_and, not_exists, not_or] at marked
        exact marked zero next head

end Nmos6502.Numeral

namespace Nmos6502.Lexeme

open Numeral

theorem takeWhile_append {wanted : Char → Bool} {front tail : List Char}
    (all : ∀ character ∈ front, wanted character = true)
    (ends : ∀ next ∈ tail.head?, wanted next = false) :
    (front ++ tail).takeWhile wanted = front := by
  rw [List.takeWhile_append_of_pos all]
  rcases tail with _ | ⟨next, later⟩
  · simp
  · rw [List.takeWhile_cons_of_neg (by simp [ends next rfl]), List.append_nil]

theorem readNumeral_stands {mark : Mark} {run tail : List Char} (stands : mark.Stands run tail)
    (offset : Nat) :
    readNumeral offset (mark.text ++ (run ++ tail)) =
      match value? mark.radix run with
      | some value => .ok (.number value, (mark.text ++ run).length)
      | none => .error (.malformed offset (.invalidNumber (String.ofList (mark.text ++ run)))) := by
  rw [readNumeral, stands.radixMark_eq]
  simp only [List.drop_left, List.take_left, takeWhile_append stands.word stands.ends]
  rcases value? mark.radix run with _ | value
  · rfl
  · rw [List.length_append]

theorem readToken_numeral {first : Char} (starts : startsNumeral first = true) (offset : Nat)
    (rest : List Char) : readToken offset first rest = readNumeral offset (first :: rest) := by
  rw [readToken.eq_def]
  split
  case h_12 => rw [if_pos starts]
  all_goals exact absurd starts (by decide)

theorem isBlank_of_startsNumeral {character : Char} (starts : startsNumeral character = true) :
    isBlank character = false := by
  by_contra blank
  simp only [isBlank, Bool.not_eq_false, Bool.or_eq_true, beq_iff_eq] at blank
  rcases blank with (((rfl | rfl) | rfl) | rfl) | rfl
  all_goals exact absurd starts (by decide)

theorem scan_stands {mark : Mark} {run tail : List Char} (stands : mark.Stands run tail)
    (offset : Nat) :
    scan offset (mark.text ++ (run ++ tail)) =
      match value? mark.radix run with
      | some value =>
          (scan (offset + (mark.text ++ run).length) tail).map (⟨.number value, offset⟩ :: ·)
      | none => .error (.malformed offset (.invalidNumber (String.ofList (mark.text ++ run)))) := by
  obtain ⟨first, rest, same, starts⟩ := stands.starts
  have solid := isBlank_of_startsNumeral starts
  have read := readToken_numeral starts offset (rest ++ tail)
  rw [← List.cons_append, ← same, List.append_assoc, readNumeral_stands stands] at read
  rw [← List.append_assoc, same, List.cons_append]
  rw [same] at read
  rcases number : value? mark.radix run with _ | value <;> simp only [number] at read ⊢
  · rw [scan, if_neg (by simp [solid]), read]
  · rw [scan_token solid read, List.length_cons, Nat.add_sub_cancel, List.drop_left]

end Nmos6502.Lexeme
