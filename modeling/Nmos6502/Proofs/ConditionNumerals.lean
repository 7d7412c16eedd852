import Nmos6502.Proofs.ConditionPositions
import Nmos6502.Proofs.ConditionText

/-!
Numerals in conditions. Every spelling of a number of sixty-four bits is read as that number, and
every other numeral is turned down where it starts, so that no number wraps.
-/

namespace Nmos6502

theorem toLower_eq_or_isAlpha (character : Char) :
    character.toLower = character ∨ character.isAlpha = true := by
  unfold Char.toLower Char.isAlpha Char.isUpper
  split
  · rename_i upper
    refine .inr ?_
    simp only [Bool.or_eq_true, decide_eq_true_eq]
    exact .inl upper
  · exact .inl rfl

namespace Lexeme

theorem startsName_of_toLower {character : Char} (starts : startsName character.toLower = true) :
    startsName character = true := by
  rcases toLower_eq_or_isAlpha character with same | letter
  · rwa [same] at starts
  · simp [startsName, letter]

theorem continuesName_of_toLower {character : Char}
    (continues : continuesName character.toLower = true) : continuesName character = true := by
  rcases toLower_eq_or_isAlpha character with same | letter
  · rwa [same] at continues
  · simp [continuesName, Char.isAlphanum, letter]

theorem cuts_blanks {gap : List Char} (blank : ∀ character ∈ gap, isBlank character = true)
    (tail : List Char) : Cuts gap [] tail := by
  induction gap with
  | nil =>
      intro offset
      refine ⟨[], offset, rfl, ?_⟩
      rw [List.nil_append]
      rcases scan offset tail with error | lexemes <;> rfl
  | cons character rest ih =>
      rw [List.forall_mem_cons] at blank
      exact (cuts_blank blank.1 (rest ++ tail)).append (ih blank.2)

end Lexeme

def isName : List Char → Bool
  | [] => false
  | first :: rest => Lexeme.startsName first && rest.all Lexeme.continuesName

theorem isName_of_toLower {text : List Char} (name : isName (text.map Char.toLower) = true) :
    isName text = true := by
  rcases text with _ | ⟨first, rest⟩
  · exact name
  · simp only [List.map_cons, isName, Bool.and_eq_true, List.all_eq_true,
      List.forall_mem_map] at name
    simp only [isName, Bool.and_eq_true, List.all_eq_true]
    exact ⟨Lexeme.startsName_of_toLower name.1,
      fun character member => Lexeme.continuesName_of_toLower (name.2 character member)⟩

theorem TermName.isName_text (name : TermName) : isName name.text.toList = true := by
  have spelled : ∀ term : Term, (term.spellings.all fun lower => isName lower.toList) = true := by
    intro term
    cases term with
    | flag named => cases named <;> decide
    | _ => decide
  have lower := List.all_eq_true.mp (spelled name.term) _ name.known
  unfold String.toLower at lower
  rw [String.toList_map] at lower
  exact isName_of_toLower lower

theorem TermName.cuts (name : TermName) {tail : List Char}
    (ends : ∀ next ∈ tail.head?, Lexeme.continuesName next = false) :
    Lexeme.Cuts name.text.toList [.name name.text] tail := by
  have word := name.isName_text
  rcases same : name.text.toList with _ | ⟨first, rest⟩
  · rw [same] at word
    simp [isName] at word
  · simp only [same, isName, Bool.and_eq_true, List.all_eq_true] at word
    have cuts := Lexeme.cuts_name word.1 word.2 ends
    rwa [← same, String.ofList_toList, same] at cuts

namespace Numeral

open Lexeme
open Condition (parse compare)

theorem forall_head?_append {front back : List Char} {property : Char → Prop}
    (inFront : ∀ character ∈ front, property character)
    (atBack : ∀ next ∈ back.head?, property next) :
    ∀ next ∈ (front ++ back).head?, property next := by
  rcases front with _ | ⟨first, rest⟩
  · exact atBack
  · intro next head
    obtain rfl : first = next := by simpa using head
    exact inFront first (List.mem_cons_self ..)

def comparisonText (name : TermName) (comparison : Comparison) (gap wide numeral : List Char) :
    List Char :=
  name.text.toList ++ (gap ++ (comparison.text.toList ++ (wide ++ numeral)))

theorem cuts_comparisonText (name : TermName) (comparison : Comparison) {mark : Mark}
    {run gap wide : List Char} {value : UInt64} (spells : Spells mark.radix run value.toNat)
    (blank : ∀ character ∈ gap ++ wide, isBlank character = true) :
    Cuts (comparisonText name comparison gap wide (mark.text ++ run))
      [.name name.text, .comparison comparison, .number value] [] := by
  rw [List.forall_mem_append] at blank
  have stands : mark.Stands run [] := spells.stands (by simp)
  obtain ⟨first, rest, same, starts⟩ := stands.starts
  have numeral : Cuts (mark.text ++ run) [.number value] [] :=
    cuts_numeral mark spells (by simp [Stops])
  have beforeNumeral : ∀ next ∈ (wide ++ (mark.text ++ run) ++ []).head?, next ≠ '=' := by
    rw [List.append_assoc]
    refine forall_head?_append (fun next inGap => ?_) ?_
    · rintro rfl
      exact absurd (blank.2 _ inGap) (by decide)
    · simp only [same, List.cons_append, List.head?_cons, Option.mem_some_iff, forall_eq']
      rintro rfl
      exact absurd starts (by decide)
  have compared := (cuts_comparison comparison beforeNumeral).append
    ((cuts_blanks blank.2 _).append numeral)
  have afterName : ∀ next ∈ (gap ++ (comparison.text.toList ++ (wide ++ (mark.text ++ run))) ++
      []).head?, continuesName next = false := by
    rw [List.append_assoc]
    refine forall_head?_append (fun next inGap => ?_) ?_
    · by_contra word
      rw [Bool.not_eq_false] at word
      exact absurd (blank.1 _ inGap) (by simp [Lexeme.isBlank_of_continuesName word])
    · cases comparison <;> simp [Comparison.text] <;> decide
  exact (name.cuts afterName).append ((cuts_blanks blank.1 _).append compared)

/-- A term compared with a spelling of a number is compared with that number. -/
theorem parse_comparison (name : TermName) (comparison : Comparison) {mark : Mark}
    {run gap wide : List Char} {value : UInt64} (spells : Spells mark.radix run value.toNat)
    (blank : ∀ character ∈ gap ++ wide, isBlank character = true) :
    parse (String.ofList (comparisonText name comparison gap wide (mark.text ++ run))) =
      .ok (compare name.term comparison value) := by
  have derives : (Grammar.AnyOf.only (.only (.compared name comparison value))).Derives
      (String.ofList (comparisonText name comparison gap wide (mark.text ++ run))) := by
    refine ⟨?_, Nat.zero_le _⟩
    rw [String.toList_ofList]
    exact (cuts_comparisonText name comparison spells blank).scan_all
  exact Condition.parse_of_derives derives

theorem parse_of_scan_error {text : String} {error : ConditionError}
    (fails : scan 0 text.toList = .error error) : parse text = .error error := by
  rw [Condition.parse, fails]

theorem parse_invalid {text : String} {mark : Mark} {run tail : List Char} {offset : Nat}
    (stands : mark.Stands run tail) (invalid : Invalid mark.radix run)
    (reaches : Reaches text.toList offset (mark.text ++ (run ++ tail))) :
    parse text =
      .error (.malformed offset (.invalidNumber (String.ofList (mark.text ++ run)))) := by
  refine parse_of_scan_error (reaches.scan_error ?_)
  rw [scan_stands stands, (value?_eq_none_iff mark.radix_bounds.2 stands.word).mpr invalid]

/-- Every spelling of a number of sixty-four bits is read as this number, as one token, and by
comparisons; every number has spellings with any zeros in front. A numeral that spells no such
number is turned down at its first byte. -/
theorem numerals_never_wrap :
    (∀ (mark : Mark) (run : List Char) (value : UInt64), Spells mark.radix run value.toNat →
      scan 0 (mark.text ++ run) = .ok [⟨.number value, 0⟩] ∧
      (∀ tail, Stops tail → ∀ offset,
        scan offset (mark.text ++ (run ++ tail)) =
          (scan (offset + (mark.text ++ run).length) tail).map (⟨.number value, offset⟩ :: ·)) ∧
      ∀ (name : TermName) (comparison : Comparison) (gap wide : List Char),
        (∀ character ∈ gap ++ wide, isBlank character = true) →
        parse (String.ofList (comparisonText name comparison gap wide (mark.text ++ run))) =
          .ok (compare name.term comparison value)) ∧
    (∀ (mark : Mark) (value : UInt64) (zeros : Nat), Spells mark.radix
      (List.replicate zeros '0' ++ Nat.toDigits mark.radix value.toNat) value.toNat) ∧
    ∀ (text : String) (mark : Mark) (run tail : List Char) (offset : Nat),
      mark.Stands run tail → Invalid mark.radix run →
      Reaches text.toList offset (mark.text ++ (run ++ tail)) →
      (∃ front, text.toList = front ++ (mark.text ++ (run ++ tail)) ∧ offset = byteLength front) ∧
        parse text =
          .error (.malformed offset (.invalidNumber (String.ofList (mark.text ++ run)))) := by
  refine ⟨fun mark run value spells => ⟨?_, ?_, ?_⟩, ?_, ?_⟩
  · have nothing : Stops [] := by simp [Stops]
    have alone := scan_spelled mark spells nothing 0
    rwa [List.append_nil, scan] at alone
  · intro tail stops offset
    exact scan_spelled mark spells stops offset
  · intro name comparison gap wide blank
    exact parse_comparison name comparison spells blank
  · intro mark value zeros
    exact (spells_toDigits mark.radix_bounds.1 _).zeros_append zeros
  · intro text mark run tail offset stands invalid reaches
    exact ⟨reaches.position, parse_invalid stands invalid reaches⟩

theorem spells_sample : Spells Mark.upperX.radix ['0', 'f', 'F'] (255 : UInt64).toNat := by
  have figure : 15 < 16 := by decide
  have first : Spells 16 ['0'] 0 := .digit (.inl rfl) (by decide)
  have lower : IsFigure 'f' 15 := by decide
  have upper : IsFigure 'F' 15 := by decide
  have second : Spells 16 ['0', 'f'] 15 := first.more lower figure
  exact second.more upper figure

theorem spells_large : Spells Mark.unmarked.radix "18446744073709551616".toList UInt64.size :=
  spells_toDigits (by decide) UInt64.size

theorem stands_large : Mark.unmarked.Stands "18446744073709551616".toList [] :=
  spells_large.stands (by simp)

theorem reaches_large :
    Reaches "a<18446744073709551616".toList 2 "18446744073709551616".toList := by
  have name : readToken 0 'a' "<18446744073709551616".toList = .ok (.name "a", 1) := by
    decide +kernel
  have sign : readToken 1 '<' "18446744073709551616".toList = .ok (.comparison .less, 1) := rfl
  have compared := Reaches.start.token (by decide) name
  exact compared.token (by decide) sign

theorem samples_never_wrap :
    Spells Mark.upperX.radix ['0', 'f', 'F'] (255 : UInt64).toNat ∧
      scan 0 "0X0fF".toList = .ok [⟨.number 255, 0⟩] ∧
      parse "A >=\t0X0fF" = .ok (compare .a .atLeast 255) ∧
      Mark.unmarked.Stands "18446744073709551616".toList [] ∧
      Invalid Mark.unmarked.radix "18446744073709551616".toList ∧
      Reaches "a<18446744073709551616".toList 2 "18446744073709551616".toList ∧
      parse "a<18446744073709551616" =
        .error (.malformed 2 (.invalidNumber "18446744073709551616")) := by
  obtain ⟨accepted, _, rejected⟩ := numerals_never_wrap
  obtain ⟨alone, _, compared⟩ := accepted .upperX ['0', 'f', 'F'] 255 spells_sample
  have parsed := compared ⟨"A", .a, by decide +kernel⟩ .atLeast [' '] ['\t']
    (List.all_eq_true.mp (by decide))
  have large : Invalid Mark.unmarked.radix "18446744073709551616".toList :=
    .large spells_large (Nat.le_refl _)
  have refused :=
    rejected "a<18446744073709551616" .unmarked _ [] 2 stands_large large reaches_large
  exact ⟨spells_sample, alone, parsed, stands_large, large, reaches_large, refused.2⟩

end Numeral

end Nmos6502
