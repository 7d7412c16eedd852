import Nmos6502.Condition.Token
import Nmos6502.Text.Quoted

/-!
How a text is cut: blanks are passed over, and from any other character on one token is read
and the text after it cut in turn. The names among the tokens hold no blanks.
-/

namespace Nmos6502

theorem Blank.isBlank_of_continuesName {character : Char}
    (continues : Lexeme.continuesName character = true) : Blank.isBlank character = false := by
  unfold Lexeme.continuesName Char.isAlphanum Char.isAlpha Char.isUpper Char.isLower Char.isDigit
    at continues
  simp only [Bool.or_eq_true, Bool.and_eq_true, decide_eq_true_eq, beq_iff_eq, ge_iff_le,
    UInt32.le_iff_toNat_le] at continues
  rcases continues with letter | rfl
  · simp only [Blank.isBlank, Bool.or_eq_false_iff, Bool.and_eq_false_iff, decide_eq_false_iff_not,
      beq_eq_false_iff_ne, ne_eq]
    have code : character.toNat = character.val.toNat := rfl
    simp at letter
    omega
  · decide

theorem Blank.trim_bare {text : String}
    (bare : ∀ character ∈ text.toList, isBlank character = false) : trim text = text := by
  have keep : ∀ characters : List Char, (∀ character ∈ characters, isBlank character = false) →
      characters.dropWhile isBlank = characters := by
    intro characters solid
    rcases characters with _ | ⟨first, rest⟩
    · rfl
    · exact List.dropWhile_cons_of_neg (by simp [solid first])
  rw [trim, trimList, keep _ bare, keep _ (by simpa using bare), List.reverse_reverse,
    String.ofList_toList]

theorem Blank.toLower_of_isBlank {character : Char} (blank : isBlank character = true) :
    character.toLower = character := by
  have code : character.toNat = character.val.toNat := rfl
  unfold Char.toLower
  rw [dif_neg]
  simp only [isBlank, Bool.or_eq_true, Bool.and_eq_true, decide_eq_true_eq, beq_iff_eq] at blank
  simp only [ge_iff_le, UInt32.le_iff_toNat_le]
  simp
  omega

namespace Lexeme

theorem scan_blank {character : Char} (blank : isBlank character = true) (offset : Nat)
    (text : List Char) : scan offset (character :: text) = scan (offset + 1) text := by
  rw [scan, if_pos blank]

theorem scan_token {first : Char} {rest : List Char} {offset length : Nat} {token : Token}
    (solid : isBlank first = false) (read : readToken offset first rest = .ok (token, length)) :
    scan offset (first :: rest) =
      (scan (offset + length) (rest.drop (length - 1))).map (⟨token, offset⟩ :: ·) := by
  rw [scan, if_neg (by simp [solid]), read]
  simp only
  rcases scan (offset + length) (rest.drop (length - 1)) with error | lexemes <;> rfl

theorem exists_of_scan_token {first : Char} {rest : List Char} {offset length : Nat} {token : Token}
    {lexemes : List Lexeme} (solid : isBlank first = false)
    (read : readToken offset first rest = .ok (token, length))
    (scanned : scan offset (first :: rest) = .ok lexemes) :
    ∃ later, scan (offset + length) (rest.drop (length - 1)) = .ok later ∧
      lexemes = ⟨token, offset⟩ :: later := by
  rw [scan_token solid read] at scanned
  rcases remaining : scan (offset + length) (rest.drop (length - 1)) with error | later
  · simp [remaining, Except.map] at scanned
  · simp only [remaining, Except.map, Except.ok.injEq] at scanned
    exact ⟨later, rfl, scanned.symm⟩

end Lexeme

/-- A token that is a name without blanks, or no name at all. -/
def Token.Unspaced : Token → Prop
  | .name text => ∀ character ∈ text.toList, Blank.isBlank character = false
  | _ => True

namespace Lexeme

theorem readNumeral_unspaced {offset length : Nat} {text : List Char} {token : Token}
    (read : readNumeral offset text = .ok (token, length)) : token.Unspaced := by
  simp only [readNumeral] at read
  split at read
  · simp only [Except.ok.injEq, Prod.mk.injEq] at read
    rw [← read.1]
    trivial
  · simp at read

theorem continuesName_of_startsName {character : Char} (starts : startsName character = true) :
    continuesName character = true := by
  simp only [startsName, continuesName, Char.isAlphanum, Bool.or_eq_true] at starts ⊢
  exact starts.imp_left .inl

theorem readToken_unspaced {offset length : Nat} {first : Char} {rest : List Char}
    {token : Token} (read : readToken offset first rest = .ok (token, length)) :
    token.Unspaced := by
  rw [readToken.eq_def] at read
  split at read
  case h_12 =>
    split at read
    · exact readNumeral_unspaced read
    · split at read
      · rename_i starts
        simp only [Except.ok.injEq, Prod.mk.injEq] at read
        rw [← read.1]
        intro character member
        rw [String.toList_ofList, List.mem_cons] at member
        rcases member with rfl | later
        · exact Blank.isBlank_of_continuesName (continuesName_of_startsName starts)
        · exact Blank.isBlank_of_continuesName (List.all_eq_true.mp List.all_takeWhile _ later)
      · simp at read
  all_goals
    simp only [Except.ok.injEq, Prod.mk.injEq] at read
    rw [← read.1]
    trivial

theorem scan_unspaced {offset : Nat} {text : List Char} {lexemes : List Lexeme}
    (scanned : scan offset text = .ok lexemes) :
    ∀ lexeme ∈ lexemes, lexeme.token.Unspaced := by
  generalize lengthEq : text.length = length
  induction length using Nat.strongRecOn generalizing offset text lexemes with
  | ind length ih =>
      rcases text with _ | ⟨first, rest⟩
      · rw [scan, Except.ok.injEq] at scanned
        simp [← scanned]
      · rw [List.length_cons] at lengthEq
        by_cases blank : isBlank first = true
        · rw [scan_blank blank] at scanned
          exact ih rest.length (by omega) scanned rfl
        · rw [Bool.not_eq_true] at blank
          rcases read : readToken offset first rest with error | ⟨token, taken⟩
          · rw [scan, if_neg (by simp [blank]), read] at scanned
            simp at scanned
          · obtain ⟨later, laterScanned, rfl⟩ := exists_of_scan_token blank read scanned
            intro lexeme member
            rcases List.mem_cons.mp member with rfl | member
            · exact readToken_unspaced read
            · exact ih _ (by rw [List.length_drop]; omega) laterScanned rfl lexeme member

end Lexeme

end Nmos6502
