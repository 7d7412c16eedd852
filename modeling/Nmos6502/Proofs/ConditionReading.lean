import Nmos6502.Proofs.ConditionGrammar

/-!
What each of the readings takes from the front of some lexemes, and what it leaves.
-/

namespace Nmos6502.Condition

variable {α : Type}

/-- A reading takes a value from the front of some lexemes and leaves the rest. -/
def Takes (reading : Reading α) (lexemes : List Lexeme) (value : α) (rest : List Lexeme) : Prop :=
  ∃ shorter, reading lexemes = .ok ⟨value, rest, shorter⟩

inductive TakesEach (separator : Token) (item : Reading α) :
    List Lexeme → List α → List Lexeme → Prop
  | last {lexemes value rest} : Takes item lexemes value rest →
      (∀ next ∈ rest.head?, next.token ≠ separator) →
      TakesEach separator item lexemes [value] rest
  | more {lexemes value offset middle values rest} :
      Takes item lexemes value (⟨separator, offset⟩ :: middle) →
      TakesEach separator item middle values rest →
      TakesEach separator item lexemes (value :: values) rest

theorem takesEach_of_takes {separator : Token} {item : Reading α} {lexemes : List Lexeme}
    {values : List α} {rest : List Lexeme}
    (takes : Takes (separated separator item) lexemes values rest) :
    TakesEach separator item lexemes values rest := by
  generalize lengthEq : lexemes.length = length
  induction length using Nat.strongRecOn generalizing lexemes values with
  | ind length ih =>
      obtain ⟨shorter, taken⟩ := takes
      rw [separated] at taken
      split at taken
      · simp at taken
      · rename_i value valueShorter first
        simp only [Except.ok.injEq, Parsed.mk.injEq] at taken
        obtain ⟨rfl, rfl⟩ := taken
        exact .last ⟨valueShorter, first⟩ (by simp)
      · rename_i value next middle valueShorter first
        split at taken
        · rename_i separates
          split at taken
          · simp at taken
          · rename_i more later
            simp only [Except.ok.injEq, Parsed.mk.injEq] at taken
            obtain ⟨rfl, rfl⟩ := taken
            subst separates
            rw [List.length_cons] at valueShorter
            exact .more ⟨by rwa [List.length_cons], first⟩
              (ih middle.length (by omega) ⟨more.shorter, later⟩ rfl)
        · rename_i another
          simp only [Except.ok.injEq, Parsed.mk.injEq] at taken
          obtain ⟨rfl, rfl⟩ := taken
          exact .last ⟨valueShorter, first⟩ (by simpa using another)

theorem takes_of_takesEach {separator : Token} {item : Reading α} {lexemes : List Lexeme}
    {values : List α} {rest : List Lexeme} (takes : TakesEach separator item lexemes values rest) :
    Takes (separated separator item) lexemes values rest := by
  induction takes with
  | @last lexemes value rest first apart =>
      obtain ⟨shorter, first⟩ := first
      cases rest with
      | nil => exact ⟨shorter, by rw [separated, first]⟩
      | cons next rest =>
          have another : next.token ≠ separator := apart next (by simp)
          exact ⟨shorter, by rw [separated, first]; simp [another]⟩
  | more first _ ih =>
      obtain ⟨shorter, first⟩ := first
      obtain ⟨laterShorter, later⟩ := ih
      rw [List.length_cons] at shorter
      exact ⟨by omega, by rw [separated, first]; simp [later]⟩

theorem TakesEach.exists_takes {separator : Token} {item : Reading α} {lexemes : List Lexeme}
    {values : List α} {rest : List Lexeme} (takes : TakesEach separator item lexemes values rest) :
    ∃ value left, Takes item lexemes value left := by
  cases takes with
  | last first _ => exact ⟨_, _, first⟩
  | more first _ => exact ⟨_, _, first⟩

theorem takes_separated_iff {separator : Token} {item : Reading α} {lexemes : List Lexeme}
    {values : List α} {rest : List Lexeme} :
    Takes (separated separator item) lexemes values rest ↔
      TakesEach separator item lexemes values rest :=
  ⟨takesEach_of_takes, takes_of_takesEach⟩

/-- What follows the name of a term: a comparison with a number, or else nothing that counts. -/
inductive Compares (term : Term) : List Lexeme → Condition → List Lexeme → Prop
  | number {comparison number first second rest} :
      Compares term (⟨.comparison comparison, first⟩ :: ⟨.number number, second⟩ :: rest)
        (compare term comparison number) rest
  | nothing {rest} : (∀ next ∈ rest.head?, ∀ comparison, next.token ≠ .comparison comparison) →
      Compares term rest (compare term .different 0) rest

section

variable {lexemes rest : List Lexeme} {condition : Condition}

theorem takes_gathered_iff {separator : Token} {combine : List Condition → Condition}
    {item : Reading Condition} :
    Takes (gathered separator combine item) lexemes condition rest ↔
      ∃ parts, TakesEach separator item lexemes parts rest ∧ condition = gather combine parts := by
  simp only [← takes_separated_iff, Takes, gathered]
  constructor
  · rintro ⟨shorter, taken⟩
    split at taken
    · simp at taken
    · rename_i parsed read
      simp only [Except.ok.injEq, Parsed.mk.injEq] at taken
      obtain ⟨rfl, rfl⟩ := taken
      exact ⟨parsed.value, ⟨parsed.shorter, read⟩, rfl⟩
  · rintro ⟨parts, ⟨shorter, read⟩, rfl⟩
    exact ⟨shorter, by rw [read]⟩

variable {ending levels offset : Nat}

theorem takes_negation_iff :
    Takes (readPart ending levels) (⟨.negation, offset⟩ :: lexemes) condition rest ↔
      ∃ fewer inner, levels = fewer + 1 ∧ condition = not inner ∧
        Takes (readPart ending fewer) lexemes inner rest := by
  rcases levels with _ | fewer
  · simp [Takes, readPart]
  · simp only [Takes]
    rw [readPart]
    constructor
    · rintro ⟨shorter, taken⟩
      split at taken
      · simp at taken
      · rename_i inner read
        simp only [Except.ok.injEq, Parsed.mk.injEq] at taken
        obtain ⟨rfl, rfl⟩ := taken
        exact ⟨fewer, inner.value, rfl, rfl, inner.shorter, read⟩
    · rintro ⟨same, inner, levelsEq, rfl, shorter, read⟩
      obtain rfl : fewer = same := by omega
      exact ⟨Nat.lt_succ_of_lt shorter, by simp only [read]⟩

theorem takes_opening_iff :
    Takes (readPart ending levels) (⟨.opening, offset⟩ :: lexemes) condition rest ↔
      ∃ fewer closing, levels = fewer + 1 ∧
        Takes (alternatives (readPart ending fewer)) lexemes condition
          (⟨.closing, closing⟩ :: rest) := by
  rcases levels with _ | fewer
  · simp [Takes, readPart]
  · simp only [Takes]
    rw [readPart]
    constructor
    · rintro ⟨shorter, taken⟩
      split at taken
      · simp at taken
      · rename_i value closing after innerShorter read
        simp only [Except.ok.injEq, Parsed.mk.injEq] at taken
        obtain ⟨rfl, rfl⟩ := taken
        exact ⟨fewer, closing, rfl, innerShorter, read⟩
      · simp at taken
    · rintro ⟨same, closing, levelsEq, shorter, read⟩
      obtain rfl : fewer = same := by omega
      refine ⟨?_, by simp only [read]⟩
      rw [List.length_cons] at shorter ⊢
      omega

theorem readComparison_iff (ending : Nat) {term : Term} :
    (∃ bound, readComparison ending term lexemes = .ok (condition, ⟨rest, bound⟩)) ↔
      Compares term lexemes condition rest := by
  constructor
  · rintro ⟨bound, read⟩
    rw [readComparison.eq_def] at read
    split at read
    · simp only [Except.ok.injEq, Prod.mk.injEq, Subtype.mk.injEq] at read
      obtain ⟨rfl, rfl⟩ := read
      exact .number
    · simp at read
    · rename_i apart
      simp only [Except.ok.injEq, Prod.mk.injEq, Subtype.mk.injEq] at read
      obtain ⟨rfl, rfl⟩ := read
      refine .nothing ?_
      rintro ⟨token, offset⟩ head comparison rfl
      obtain ⟨later, rfl⟩ := List.head?_eq_some_iff.mp head
      exact apart _ _ _ rfl
  · intro compares
    cases compares with
    | number => exact ⟨_, rfl⟩
    | nothing apart =>
        refine ⟨Nat.le_refl _, ?_⟩
        rw [readComparison.eq_def]
        split
        · exact absurd rfl (apart _ rfl _)
        · exact absurd rfl (apart _ rfl _)
        · rfl

theorem takes_name_iff {name : String} :
    Takes (readPart ending levels) (⟨.name name, offset⟩ :: lexemes) condition rest ↔
      ∃ term, Term.parse name = .ok term ∧ Compares term lexemes condition rest := by
  simp only [← readComparison_iff ending, Takes]
  rw [readPart]
  constructor
  · rintro ⟨shorter, taken⟩
    split at taken
    · simp at taken
    · rename_i term named
      split at taken
      · simp at taken
      · rename_i after bound read
        simp only [Except.ok.injEq, Parsed.mk.injEq] at taken
        obtain ⟨rfl, rfl⟩ := taken
        exact ⟨term, named, bound, read⟩
  · rintro ⟨term, named, bound, read⟩
    exact ⟨Nat.lt_succ_of_le bound, by simp only [named, read]⟩

theorem Takes.starts (takes : Takes (readPart ending levels) lexemes condition rest) :
    ∃ token offset later, lexemes = ⟨token, offset⟩ :: later ∧
      (token = .negation ∨ token = .opening ∨ ∃ name, token = .name name) := by
  obtain ⟨shorter, taken⟩ := takes
  rcases lexemes with _ | ⟨⟨token, offset⟩, later⟩
  · simp at shorter
  · refine ⟨token, offset, later, rfl, ?_⟩
    cases token <;> simp_all [readPart]

end

end Nmos6502.Condition
