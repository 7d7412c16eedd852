import Nmos6502.Proofs.ConditionLanguage
import Nmos6502.Proofs.NumeralSpelling

/-!
The texts of comparisons and signs, cut into tokens in front of whatever stops a numeral.
-/

namespace Nmos6502

namespace Lexeme

def Stops (tail : List Char) : Prop :=
  ∀ next ∈ tail.head?, next.isAlphanum = false

theorem readToken_word {first : Char} (word : continuesName first = true) (offset : Nat)
    (rest : List Char) :
    readToken offset first rest =
      if startsNumeral first then readNumeral offset (first :: rest)
      else if startsName first then
        .ok (.name (String.ofList (first :: rest.takeWhile continuesName)),
          (first :: rest.takeWhile continuesName).length)
      else .error (.malformed offset (.unexpectedCharacter first)) := by
  rw [readToken.eq_def]
  split
  case h_12 => rfl
  all_goals exact absurd word (by decide)

/-- From any offset on, a text in front of a tail is cut into some tokens, and the tail is cut
after it. -/
def Cuts (text : List Char) (tokens : List Token) (tail : List Char) : Prop :=
  ∀ offset, ∃ front after, front.map Lexeme.token = tokens ∧
    scan offset (text ++ tail) = (scan after tail).map (front ++ ·)

theorem Cuts.append {first second tail : List Char} {tokens more : List Token}
    (cuts : Cuts first tokens (second ++ tail)) (later : Cuts second more tail) :
    Cuts (first ++ second) (tokens ++ more) tail := by
  intro offset
  obtain ⟨front, middle, frontTokens, cut⟩ := cuts offset
  obtain ⟨back, after, backTokens, laterCut⟩ := later middle
  refine ⟨front ++ back, after, by rw [List.map_append, frontTokens, backTokens], ?_⟩
  rw [List.append_assoc, cut, laterCut]
  rcases scan after tail with error | lexemes <;> simp [Except.map]

theorem Cuts.spells {text tail : List Char} {tokens : List Token} {offset : Nat}
    {lexemes : List Lexeme} (cuts : Cuts text tokens tail)
    (scanned : scan offset (text ++ tail) = .ok lexemes) :
    ∃ rest after, scan after tail = .ok rest ∧ Condition.Spells lexemes tokens rest := by
  obtain ⟨front, after, frontTokens, cut⟩ := cuts offset
  rcases later : scan after tail with error | rest
  · simp [cut, later, Except.map] at scanned
  · simp only [cut, later, Except.map, Except.ok.injEq] at scanned
    exact ⟨rest, after, later, front, scanned.symm, frontTokens⟩

theorem Cuts.scan_all {text : List Char} {tokens : List Token} (cuts : Cuts text tokens []) :
    ∃ lexemes, scan 0 text = .ok lexemes ∧ lexemes.map Lexeme.token = tokens := by
  obtain ⟨front, after, frontTokens, cut⟩ := cuts 0
  rw [List.append_nil, scan] at cut
  exact ⟨front, by simpa [Except.map] using cut, frontTokens⟩

theorem cuts_blank {character : Char} (blank : isBlank character = true) (tail : List Char) :
    Cuts [character] [] tail := by
  intro offset
  refine ⟨[], offset + 1, rfl, ?_⟩
  rw [List.singleton_append, scan_blank blank]
  rcases scan (offset + 1) tail with error | lexemes <;> rfl

theorem cuts_token {first : Char} {rest tail : List Char} {token : Token}
    (solid : isBlank first = false)
    (read : ∀ offset, readToken offset first (rest ++ tail) = .ok (token, rest.length + 1)) :
    Cuts (first :: rest) [token] tail := by
  intro offset
  refine ⟨[⟨token, offset⟩], offset + (rest.length + 1), rfl, ?_⟩
  rw [List.cons_append, scan_token solid (read offset), Nat.add_sub_cancel, List.drop_left]
  rfl

theorem cuts_opening (tail : List Char) : Cuts ['('] [.opening] tail :=
  cuts_token rfl fun _ => rfl

theorem cuts_closing (tail : List Char) : Cuts [')'] [.closing] tail :=
  cuts_token rfl fun _ => rfl

theorem cuts_negation (tail : List Char) : Cuts ['!'] [.negation] ('(' :: tail) :=
  cuts_token rfl fun _ => rfl

theorem cuts_both (tail : List Char) : Cuts " && ".toList [.both] tail := by
  have sign : Cuts ['&', '&'] [.both] (' ' :: tail) := cuts_token rfl fun _ => rfl
  have spaced := sign.append (cuts_blank rfl tail)
  exact (cuts_blank rfl _).append spaced

theorem cuts_either (tail : List Char) : Cuts " || ".toList [.either] tail := by
  have sign : Cuts ['|', '|'] [.either] (' ' :: tail) := cuts_token rfl fun _ => rfl
  have spaced := sign.append (cuts_blank rfl tail)
  exact (cuts_blank rfl _).append spaced

theorem cuts_comparison (comparison : Comparison) {tail : List Char}
    (apart : ∀ next ∈ tail.head?, next ≠ '=') :
    Cuts comparison.text.toList [.comparison comparison] tail := by
  cases comparison with
  | equal | different | atMost | atLeast => exact cuts_token rfl fun _ => rfl
  | less =>
      change Cuts ['<'] _ tail
      refine cuts_token rfl fun offset => ?_
      rcases tail with _ | ⟨next, later⟩
      · rfl
      · simp [readToken, apart next rfl]
  | greater =>
      change Cuts ['>'] _ tail
      refine cuts_token rfl fun offset => ?_
      rcases tail with _ | ⟨next, later⟩
      · rfl
      · simp [readToken, apart next rfl]

theorem isBlank_of_continuesName {character : Char} (word : continuesName character = true) :
    isBlank character = false := by
  by_contra blank
  simp only [isBlank, Bool.not_eq_false, Bool.or_eq_true, beq_iff_eq] at blank
  rcases blank with (((rfl | rfl) | rfl) | rfl) | rfl
  all_goals exact absurd word (by decide)

theorem startsNumeral_of_startsName {character : Char} (starts : startsName character = true) :
    startsNumeral character = false := by
  have code : character.toNat = character.val.toNat := rfl
  by_contra numeral
  simp only [startsNumeral, Bool.not_eq_false, Bool.or_eq_true, beq_iff_eq] at numeral
  rcases numeral with (rfl | rfl) | digit
  · exact absurd starts (by decide)
  · exact absurd starts (by decide)
  · unfold startsName Char.isAlpha Char.isUpper Char.isLower at starts
    simp only [Char.isDigit, Bool.or_eq_true, Bool.and_eq_true, decide_eq_true_eq, beq_iff_eq,
      ge_iff_le, UInt32.le_iff_toNat_le] at starts digit
    rcases starts with letter | rfl
    · simp at letter digit
      omega
    · exact absurd digit (by decide)

theorem cuts_name {first : Char} {rest tail : List Char} (starts : startsName first = true)
    (word : ∀ character ∈ rest, continuesName character = true)
    (ends : ∀ next ∈ tail.head?, continuesName next = false) :
    Cuts (first :: rest) [.name (String.ofList (first :: rest))] tail := by
  have begins := continuesName_of_startsName starts
  refine cuts_token (isBlank_of_continuesName begins) fun offset => ?_
  rw [readToken_word begins, startsNumeral_of_startsName starts, starts,
    takeWhile_append word ends]
  rfl

theorem cuts_term (term : Term) (tail : List Char) :
    Cuts term.text.toList [.name term.text] (' ' :: tail) := by
  have word : ∃ first rest, term.text.toList = first :: rest ∧ startsName first = true ∧
      rest.all continuesName = true := by
    cases term with
    | flag named => cases named <;> exact ⟨_, _, rfl, by decide, by decide⟩
    | _ => exact ⟨_, _, rfl, by decide, by decide⟩
  obtain ⟨first, rest, text, starts, continues⟩ := word
  have cuts : Cuts (first :: rest) [.name (String.ofList (first :: rest))] (' ' :: tail) :=
    cuts_name starts (List.all_eq_true.mp continues) (by simp; decide)
  rwa [← text, String.ofList_toList] at cuts

theorem scan_spelled (mark : Numeral.Mark) {run : List Char} {value : UInt64}
    (spells : Numeral.Spells mark.radix run value.toNat) {tail : List Char} (stops : Stops tail)
    (offset : Nat) :
    scan offset (mark.text ++ (run ++ tail)) =
      (scan (offset + (mark.text ++ run).length) tail).map (⟨.number value, offset⟩ :: ·) := by
  rw [scan_stands (spells.stands stops), Numeral.value?_of_spells mark.radix_bounds.2 spells]

theorem cuts_numeral (mark : Numeral.Mark) {run tail : List Char} {value : UInt64}
    (spells : Numeral.Spells mark.radix run value.toNat) (stops : Stops tail) :
    Cuts (mark.text ++ run) [.number value] tail := by
  intro offset
  refine ⟨[⟨.number value, offset⟩], offset + (mark.text ++ run).length, rfl, ?_⟩
  rw [List.append_assoc, scan_spelled mark spells stops]
  rfl

theorem cuts_number (number : UInt64) {tail : List Char} (stops : Stops tail) :
    Cuts (toString number.toNat).toList [.number number] tail := by
  rw [Nat.toString_eq_repr, Nat.toList_repr]
  exact cuts_numeral .unmarked (Numeral.spells_toDigits (by decide) _) stops

theorem cuts_compare (term : Term) (comparison : Comparison) (number : UInt64) {tail : List Char}
    (stops : Stops tail) :
    Cuts (Condition.compare term comparison number).text.toList
      [.name term.text, .comparison comparison, .number number] tail := by
  have gap : ∀ tail, Cuts [' '] [] tail := cuts_blank rfl
  have numbered := (gap _).append (cuts_number number stops)
  have compared := (gap _).append ((cuts_comparison comparison (by simp)).append numbered)
  have named := (cuts_term term _).append compared
  simpa [Condition.text] using named

end Lexeme

end Nmos6502
