import Nmos6502.Proofs.ConditionLanguage
import Nmos6502.Proofs.ConditionWalk

/-!
Where a text goes wrong. What keeps a text from being read is found at a character that starts no
token, at a numeral that is no number, or at a token where another one has to come, at the end of
the text if there is none. All of these lie between characters.
-/

namespace Nmos6502

theorem Term.parse_ne_malformed {name : String} {position : Nat} {fault : TextFault} :
    Term.parse name ≠ .error (.malformed position fault) := by
  rw [Term.parse]
  split
  · simp
  · split <;> simp

namespace Condition

mutual

/-- Parts have to come after some tokens, joined by signs. So many signs "!" and "(" are open. -/
inductive Opens : Nat → List Lexeme → Prop
  | start : Opens 0 []
  | enclosed {depth before offset} : Awaits depth before →
      Opens (depth + 1) (before ++ [⟨.opening, offset⟩])
  | joined {depth before taken separator offset} {sentence : Grammar.AnyOf} :
      Opens depth before → taken.map Lexeme.token = sentence.tokens →
      separator = .both ∨ separator = .either →
      Opens depth (before ++ (taken ++ [⟨separator, offset⟩]))

inductive Awaits : Nat → List Lexeme → Prop
  | next {depth before} : Opens depth before → Awaits depth before
  | negated {depth before offset} : Awaits depth before →
      Awaits (depth + 1) (before ++ [⟨.negation, offset⟩])

end

def Apart (rest : List Lexeme) : Prop :=
  ∀ next ∈ rest.head?, next.token ≠ .both ∧ next.token ≠ .either

/-- What is wrong with the tokens of a text, and the offset at which it is. -/
inductive Faulty (ending : Nat) (lexemes : List Lexeme) : Nat → TextFault → Prop
  | trailing {sentence : Grammar.AnyOf} {next rest} :
      Spells lexemes sentence.tokens (next :: rest) → Apart (next :: rest) →
      Faulty ending lexemes next.offset .trailingInput
  | nested {before sign offset rest} : lexemes = before ++ ⟨sign, offset⟩ :: rest →
      Awaits nestingLimit before → sign = .negation ∨ sign = .opening →
      Faulty ending lexemes offset (.nestedTooDeeply nestingLimit)
  | unclosed {depth before offset inside rest} {sentence : Grammar.AnyOf} :
      lexemes = before ++ ⟨.opening, offset⟩ :: inside → Awaits depth before →
      Spells inside sentence.tokens rest → Apart rest →
      (∀ next ∈ rest.head?, next.token ≠ .closing) →
      Faulty ending lexemes offset .unclosedParenthesis
  | number {depth before name first comparison second rest} :
      lexemes = before ++ ⟨.name name, first⟩ :: ⟨.comparison comparison, second⟩ :: rest →
      Awaits depth before → (∀ next ∈ rest.head?, ∀ number, next.token ≠ .number number) →
      Faulty ending lexemes (offsetOr ending rest) .expectedNumber
  | term {depth before token offset rest} : lexemes = before ++ ⟨token, offset⟩ :: rest →
      Awaits depth before → token ≠ .negation → token ≠ .opening →
      (∀ name, token ≠ .name name) → Faulty ending lexemes offset .expectedTerm
  | ended {depth} : lexemes ≠ [] → Awaits depth lexemes →
      Faulty ending lexemes ending .unexpectedEnd

theorem Faulty.position {ending : Nat} {lexemes : List Lexeme} {position : Nat}
    {fault : TextFault} (faulty : Faulty ending lexemes position fault) :
    position = ending ∨ ∃ lexeme ∈ lexemes, lexeme.offset = position := by
  cases faulty with
  | @trailing _ next rest spells _ =>
      obtain ⟨taken, rfl, _⟩ := spells
      exact .inr ⟨next, by simp, rfl⟩
  | nested same | unclosed same | term same =>
      exact .inr ⟨_, same ▸ List.mem_append_cons_self, rfl⟩
  | @number _ _ _ _ _ _ rest same =>
      rcases rest with _ | ⟨next, later⟩
      · exact .inl rfl
      · exact .inr ⟨next, by simp [same], rfl⟩
  | ended => exact .inl rfl

inductive FailsEach {α : Type} (separator : Token) (item : Reading α) (error : ConditionError) :
    List Lexeme → Prop
  | now {lexemes} : item lexemes = .error error → FailsEach separator item error lexemes
  | later {lexemes value offset rest} : Takes item lexemes value (⟨separator, offset⟩ :: rest) →
      FailsEach separator item error rest → FailsEach separator item error lexemes

theorem failsEach_of_separated {α : Type} {separator : Token} {item : Reading α}
    {error : ConditionError} {lexemes : List Lexeme}
    (fails : separated separator item lexemes = .error error) :
    FailsEach separator item error lexemes := by
  -- Each item leaves fewer tokens, which is what the induction is on.
  generalize lengthEq : lexemes.length = length
  induction length using Nat.strongRecOn generalizing lexemes with
  | ind length ih =>
      rw [separated] at fails
      split at fails
      · rename_i problem read
        cases fails
        exact .now read
      · simp at fails
      · rename_i value next rest shorter read
        split at fails
        · rename_i separates
          split at fails
          · rename_i problem later
            cases fails
            subst separates
            have fewer := shorter
            simp only [List.length_cons] at fewer
            exact .later ⟨shorter, read⟩ (ih rest.length (by omega) later rfl)
          · simp at fails
        · simp at fails

theorem failsEach_of_gathered {separator : Token} {combine : List Condition → Condition}
    {item : Reading Condition} {error : ConditionError} {lexemes : List Lexeme}
    (fails : gathered separator combine item lexemes = .error error) :
    FailsEach separator item error lexemes := by
  rw [gathered] at fails
  split at fails
  · rename_i problem read
    cases fails
    exact failsEach_of_separated read
  · simp at fails

theorem TakesEach.apart {α : Type} {separator : Token} {item : Reading α} {lexemes : List Lexeme}
    {values : List α} {rest : List Lexeme} (takes : TakesEach separator item lexemes values rest) :
    (∀ next ∈ rest.head?, next.token ≠ separator) ∧
      ∃ before value, Takes item before value rest := by
  induction takes with
  | last first apart => exact ⟨apart, _, _, first⟩
  | more _ _ ih => exact ih

theorem readComparison_error {ending position : Nat} {term : Term} {lexemes : List Lexeme}
    {fault : TextFault}
    (fails : readComparison ending term lexemes = .error (.malformed position fault)) :
    ∃ comparison offset rest, lexemes = ⟨.comparison comparison, offset⟩ :: rest ∧
      (∀ next ∈ rest.head?, ∀ number, next.token ≠ .number number) ∧
      position = offsetOr ending rest ∧ fault = .expectedNumber := by
  rw [readComparison.eq_def] at fails
  split at fails
  · simp at fails
  · rename_i comparison offset rest apart
    cases fails
    refine ⟨comparison, offset, rest, rfl, ?_, rfl, rfl⟩
    rintro ⟨token, second⟩ head number rfl
    obtain ⟨later, rfl⟩ := List.head?_eq_some_iff.mp head
    exact apart _ _ _ rfl
  · simp at fails

def TakesSentences {α : Type} (reading : Reading α) : Prop :=
  ∀ ⦃lexemes value rest⦄, (∀ lexeme ∈ lexemes, lexeme.token.Unspaced) →
    Takes reading lexemes value rest → ∃ sentence : Grammar.AnyOf,
      Spells lexemes sentence.tokens rest

section

variable {ending levels : Nat}

theorem takesSentences_part : TakesSentences (readPart ending levels) := by
  intro lexemes value rest unspaced takes
  obtain ⟨part, _, spells, _⟩ := Grammar.partsDerived ending levels unspaced takes
  exact ⟨.only (.only part), spells⟩

theorem takesSentences_all :
    TakesSentences (gathered .both all (readPart ending levels)) := by
  intro lexemes value rest unspaced takes
  obtain ⟨_, each, _⟩ := takes_gathered_iff.mp takes
  obtain ⟨joined, _, spells, _⟩ :=
    Grammar.exists_allOf_of_takesEach (Grammar.partsDerived ending levels) unspaced each
  exact ⟨.only joined, spells⟩

theorem takesSentences_any : TakesSentences (alternatives (readPart ending levels)) := by
  intro lexemes value rest unspaced takes
  obtain ⟨_, each, _⟩ := takes_gathered_iff.mp takes
  obtain ⟨sentence, _, spells, _⟩ :=
    Grammar.exists_anyOf_of_takesEach (Grammar.partsDerived ending levels) unspaced each
  exact ⟨sentence, spells⟩

theorem apart_of_takes {lexemes rest : List Lexeme} {condition : Condition}
    (takes : Takes (alternatives (readPart ending levels)) lexemes condition rest) :
    Apart rest := by
  obtain ⟨_, each, _⟩ := takes_gathered_iff.mp takes
  obtain ⟨apart, _, _, last⟩ := each.apart
  obtain ⟨_, parts, _⟩ := takes_gathered_iff.mp last
  exact fun next head => ⟨parts.apart.1 next head, apart next head⟩

end

/-- Where a reading fails behind some of the tokens, from places of one kind, they are faulty. -/
def Blames {α : Type} (lexemes : List Lexeme) (ending : Nat) (place : List Lexeme → Prop)
    (reading : Reading α) : Prop :=
  ∀ ⦃before rest position fault⦄, lexemes = before ++ rest → place before →
    reading rest = .error (.malformed position fault) → Faulty ending lexemes position fault

section

variable {lexemes before rest : List Lexeme} {ending depth levels offset position : Nat}
  {fault : TextFault}

section

variable (unspaced : ∀ lexeme ∈ lexemes, lexeme.token.Unspaced)

include unspaced

theorem unspaced_rest (same : lexemes = before ++ rest) :
    ∀ lexeme ∈ rest, lexeme.token.Unspaced :=
  fun lexeme member => unspaced lexeme (same ▸ List.mem_append_right before member)

theorem blames_failsEach {α : Type} {item : Reading α} {separator : Token}
    (blames : Blames lexemes ending (Opens depth) item) (sentences : TakesSentences item)
    (joins : separator = .both ∨ separator = .either) (same : lexemes = before ++ rest)
    (opens : Opens depth before)
    (fails : FailsEach separator item (.malformed position fault) rest) :
    Faulty ending lexemes position fault := by
  -- with every item taken, the tokens before grow by a sentence and a separator
  induction fails generalizing before with
  | now failed => exact blames same opens failed
  | @later _ _ offset rest takes _ ih =>
      obtain ⟨sentence, taken, rfl, spelled⟩ := sentences (unspaced_rest unspaced same) takes
      have further : lexemes = before ++ (taken ++ [⟨separator, offset⟩]) ++ rest := by simp [same]
      exact ih further (opens.joined spelled joins)

theorem blames_gathered {item : Reading Condition} {separator : Token}
    {combine : List Condition → Condition} (blames : Blames lexemes ending (Opens depth) item)
    (sentences : TakesSentences item) (joins : separator = .both ∨ separator = .either) :
    Blames lexemes ending (Opens depth) (gathered separator combine item) := by
  intro before rest position fault same opens fails
  exact blames_failsEach unspaced blames sentences joins same opens (failsEach_of_gathered fails)

theorem blames_alternatives
    (blames : Blames lexemes ending (Awaits depth) (readPart ending levels)) :
    Blames lexemes ending (Opens depth) (alternatives (readPart ending levels)) := by
  have parts : Blames lexemes ending (Opens depth) (readPart ending levels) :=
    fun _ _ _ _ same opens fails => blames same (.next opens) fails
  have joined : Blames lexemes ending (Opens depth) (gathered .both all (readPart ending levels)) :=
    blames_gathered unspaced parts takesSentences_part (.inl rfl)
  exact blames_gathered unspaced joined takesSentences_all (.inr rfl)

end

variable (awaits : Awaits depth before)

include awaits

theorem faulty_of_name {name : String}
    (same : lexemes = before ++ ⟨.name name, offset⟩ :: rest)
    (fails : readPart ending levels (⟨.name name, offset⟩ :: rest) =
      .error (.malformed position fault)) : Faulty ending lexemes position fault := by
  rw [readPart] at fails
  split at fails
  · rename_i problem unknown
    cases fails
    exact absurd unknown Term.parse_ne_malformed
  · rename_i term named
    split at fails
    · rename_i problem read
      cases fails
      obtain ⟨comparison, second, later, rfl, apart, rfl, rfl⟩ := readComparison_error read
      exact .number same awaits apart
    · simp at fails

variable (full : depth + levels = nestingLimit)

include full

theorem faulty_of_negation (same : lexemes = before ++ ⟨.negation, offset⟩ :: rest)
    (deeper : ∀ fewer, levels = fewer + 1 →
      Blames lexemes ending (Awaits (depth + 1)) (readPart ending fewer))
    (fails : readPart ending levels (⟨.negation, offset⟩ :: rest) =
      .error (.malformed position fault)) : Faulty ending lexemes position fault := by
  rcases levels with _ | fewer <;> rw [readPart] at fails
  · cases fails
    exact .nested same (full ▸ awaits) (.inl rfl)
  · have further : lexemes = before ++ [⟨.negation, offset⟩] ++ rest := by simp [same]
    split at fails
    · rename_i problem read
      cases fails
      exact deeper fewer rfl further awaits.negated read
    · simp at fails

theorem faulty_of_opening (unspaced : ∀ lexeme ∈ lexemes, lexeme.token.Unspaced)
    (same : lexemes = before ++ ⟨.opening, offset⟩ :: rest)
    (deeper : ∀ fewer, levels = fewer + 1 →
      Blames lexemes ending (Awaits (depth + 1)) (readPart ending fewer))
    (fails : readPart ending levels (⟨.opening, offset⟩ :: rest) =
      .error (.malformed position fault)) : Faulty ending lexemes position fault := by
  rcases levels with _ | fewer <;> rw [readPart] at fails
  · cases fails
    exact .nested same (full ▸ awaits) (.inr rfl)
  · have further : lexemes = before ++ [⟨.opening, offset⟩] ++ rest := by simp [same]
    split at fails
    · rename_i problem read
      cases fails
      exact blames_alternatives unspaced (deeper fewer rfl) further (.enclosed awaits) read
    · simp at fails
    · rename_i parsed unclosed read
      cases fails
      obtain ⟨value, left, shorter⟩ := parsed
      have takes : Takes (alternatives (readPart ending fewer)) rest value left := ⟨shorter, read⟩
      obtain ⟨sentence, spells⟩ := takesSentences_any (unspaced_rest unspaced further) takes
      refine .unclosed same awaits spells (apart_of_takes takes) ?_
      rintro ⟨token, closing⟩ head rfl
      obtain ⟨after, rfl⟩ := List.head?_eq_some_iff.mp head
      exact unclosed value closing after shorter rfl

end

theorem blames_part {lexemes : List Lexeme} {ending depth levels : Nat}
    (unspaced : ∀ lexeme ∈ lexemes, lexeme.token.Unspaced) (filled : lexemes ≠ [])
    (full : depth + levels = nestingLimit) :
    Blames lexemes ending (Awaits depth) (readPart ending levels) := by
  induction levels using Nat.strongRecOn generalizing depth with
  | ind levels ih =>
      have deeper : ∀ fewer, levels = fewer + 1 →
          Blames lexemes ending (Awaits (depth + 1)) (readPart ending fewer) := by
        rintro fewer rfl
        exact ih fewer (Nat.lt_succ_self fewer) (by omega)
      intro before rest position fault same awaits fails
      rcases rest with _ | ⟨⟨token, offset⟩, rest⟩
      · rw [readPart.eq_def] at fails
        cases fails
        rw [List.append_nil] at same
        exact .ended filled (same ▸ awaits)
      · cases token with
        | negation => exact faulty_of_negation awaits full same deeper fails
        | opening => exact faulty_of_opening awaits full unspaced same deeper fails
        | name name => exact faulty_of_name awaits same fails
        | _ =>
            rw [readPart.eq_def] at fails
            cases fails
            exact .term same awaits (by simp) (by simp) (by simp)

theorem faulty_of_parse {text : String} {first : Lexeme} {rest : List Lexeme} {position : Nat}
    {fault : TextFault} (scanned : Lexeme.scan 0 text.toList = .ok (first :: rest))
    (fails : parse text = .error (.malformed position fault)) :
    Faulty text.utf8ByteSize (first :: rest) position fault := by
  have unspaced := Lexeme.scan_unspaced scanned
  have whole : first :: rest = [] ++ first :: rest := rfl
  simp only [parse, scanned] at fails
  split at fails
  · rename_i problem read
    cases fails
    exact blames_alternatives unspaced (blames_part unspaced (by simp) (Nat.zero_add _)) whole
      .start read
  · simp at fails
  · rename_i condition next later shorter read
    cases fails
    have takes : Takes (alternatives (readPart text.utf8ByteSize nestingLimit)) (first :: rest)
        condition (next :: later) := ⟨shorter, read⟩
    obtain ⟨sentence, spells⟩ := takesSentences_any unspaced takes
    exact .trailing spells (apart_of_takes takes)

end Condition

namespace Lexeme

structure StartsNothing (first : Char) (rest : List Char) : Prop where
  solid : isBlank first = false
  unsigned : sign? first rest.head? = none
  unnumbered : startsNumeral first = false
  unnamed : startsName first = false

def Starts (text : String) (lexeme : Lexeme) : Prop :=
  ∃ first rest length, Reaches text.toList lexeme.offset (first :: rest) ∧
    readToken lexeme.offset first rest = .ok (lexeme.token, length)

theorem Reaches.valid {text : String} {rest : List Char} {offset : Nat}
    (reaches : Reaches text.toList offset rest) : String.Pos.Raw.IsValid text ⟨offset⟩ := by
  obtain ⟨front, same, rfl⟩ := reaches.position
  have valid := isValid_byteLength front rest
  rwa [← same, String.ofList_toList] at valid

end Lexeme

namespace Condition

open Lexeme (Reaches Starts StartsNothing)

inductive Offends (text : String) : Nat → TextFault → Prop
  | character {position first rest} : Reaches text.toList position (first :: rest) →
      StartsNothing first rest → Offends text position (.unexpectedCharacter first)
  | numeral {position run tail} {mark : Numeral.Mark} :
      Reaches text.toList position (mark.text ++ (run ++ tail)) → mark.Stands run tail →
      Numeral.Invalid mark.radix run →
      Offends text position (.invalidNumber (String.ofList (mark.text ++ run)))
  | nothing : Lexeme.scan 0 text.toList = .ok [] → Offends text 0 .emptyExpression
  | token {lexemes position fault} : Lexeme.scan 0 text.toList = .ok lexemes →
      Faulty text.utf8ByteSize lexemes position fault → Offends text position fault

theorem offends_of_scan_error {text : String} {position : Nat} {fault : TextFault}
    (fails : Lexeme.scan 0 text.toList = .error (.malformed position fault)) :
    Offends text position fault := by
  obtain ⟨place, first, rest, reaches, solid, read⟩ :=
    Lexeme.exists_reaches_of_error .start fails
  rw [Lexeme.readToken_eq] at read
  split at read
  · simp at read
  · rename_i unsigned
    rcases numeral : Lexeme.startsNumeral first
    · rcases name : Lexeme.startsName first
      · simp only [numeral, name, Bool.false_eq_true, if_false] at read
        cases read
        exact .character reaches ⟨solid, unsigned, numeral, name⟩
      · simp [numeral, name] at read
    · rw [if_pos numeral] at read
      obtain ⟨mark, run, tail, same, stands⟩ := Numeral.exists_stands numeral
      rw [same, Lexeme.readNumeral_stands stands] at read
      split at read
      · simp at read
      · rename_i invalid
        cases read
        rw [same] at reaches
        exact .numeral reaches stands
          ((Numeral.value?_eq_none_iff mark.radix_bounds.2 stands.word).mp invalid)

theorem offends_of_parse_error {text : String} {position : Nat} {fault : TextFault}
    (fails : parse text = .error (.malformed position fault)) : Offends text position fault := by
  rcases scanned : Lexeme.scan 0 text.toList with error | _ | ⟨first, rest⟩
  · simp only [parse, scanned] at fails
    cases fails
    exact offends_of_scan_error scanned
  · simp only [parse, scanned] at fails
    cases fails
    exact .nothing scanned
  · exact .token scanned (faulty_of_parse scanned fails)

theorem Offends.valid {text : String} {position : Nat} {fault : TextFault}
    (offends : Offends text position fault) : String.Pos.Raw.IsValid text ⟨position⟩ := by
  cases offends with
  | character reaches => exact reaches.valid
  | numeral reaches => exact reaches.valid
  | nothing => exact Lexeme.Reaches.start.valid
  | token scanned faulty =>
      obtain rfl | ⟨lexeme, member, rfl⟩ := faulty.position
      · exact String.Pos.Raw.isValid_rawEndPos
      · obtain ⟨_, _, _, _, reaches, _⟩ := (Lexeme.scan_offsets .start scanned).2 lexeme member
        exact reaches.valid

/-- Every text is read without a slice out of place and without a pass that takes in nothing.
The offsets of its tokens grow, and where it cannot be read, the fault lies at the position that
is told, between two characters. -/
theorem parse_safe (text : String) :
    walkText text = .of (parse text) ∧
    (∀ lexemes, Lexeme.scan 0 text.toList = .ok lexemes →
      lexemes.Pairwise (fun first second => first.offset < second.offset) ∧
        ∀ lexeme ∈ lexemes, Starts text lexeme ∧
          String.Pos.Raw.IsValid text ⟨lexeme.offset⟩) ∧
    ∀ position fault, parse text = .error (.malformed position fault) →
      Offends text position fault ∧ String.Pos.Raw.IsValid text ⟨position⟩ ∧
        position ≤ text.utf8ByteSize := by
  refine ⟨walkText_eq text, fun lexemes scanned => ?_, fun position fault fails => ?_⟩
  · obtain ⟨growing, places⟩ := Lexeme.scan_offsets .start scanned
    refine ⟨growing, fun lexeme member => ?_⟩
    obtain ⟨_, first, rest, length, reaches, read⟩ := places lexeme member
    exact ⟨⟨first, rest, length, reaches, read⟩, reaches.valid⟩
  · have offends := offends_of_parse_error fails
    exact ⟨offends, offends.valid, offends.valid.le_rawEndPos⟩

theorem samples_safe :
    (parse "a<$é" = .error (.malformed 2 (.invalidNumber "$")) ∧
      Offends "a<$é" 2 (.invalidNumber "$")) ∧
    parse "! " = .error (.malformed 2 .unexpectedEnd) ∧ Offends "! " 2 .unexpectedEnd := by
  have marked : parse "a<$é" = .error (.malformed 2 (.invalidNumber "$")) := by
    have scanned : Lexeme.scan 0 "a<$é".toList =
        .error (.malformed 2 (.invalidNumber "$")) := by decide +kernel
    rw [parse, scanned]
  have negated : parse "! " = .error (.malformed 2 .unexpectedEnd) := by
    have scanned : Lexeme.scan 0 "! ".toList = .ok [⟨.negation, 0⟩] := by decide +kernel
    have part : readPart 2 nestingLimit [⟨.negation, 0⟩] =
        .error (.malformed 2 .unexpectedEnd) := rfl
    have size : "! ".utf8ByteSize = 2 := rfl
    rw [parse, scanned, size]
    simp only
    rw [alternatives, gathered, separated, gathered, separated, part]
  exact ⟨⟨marked, ((parse_safe _).2.2 _ _ marked).1⟩, negated, ((parse_safe _).2.2 _ _ negated).1⟩

end Condition

end Nmos6502
