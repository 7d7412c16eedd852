import Mathlib.Data.List.Basic
import Nmos6502.Proofs.ConditionLexemes
import Nmos6502.Proofs.ConditionReading

/-!
The texts that are read as conditions. What is read from some lexemes is a derivation that
spells them, and every derivation that does not nest too deeply is read from the lexemes that
it spells, as long as nothing follows that could belong to it. So a text is read exactly if
the grammar has a derivation for it, and the condition means what the derivation means.
-/

namespace Nmos6502

namespace Term

theorem parse_of_mem_spellings {name : String} {term : Term} (known : name.toLower ∈ term.spellings)
    (bare : ∀ character ∈ name.toList, Blank.isBlank character = false) :
    parse name = .ok term := by
  have table : ∀ lower ∈ term.spellings, names.lookup lower = some term ∨
      names.lookup lower = none ∧
        (Flag.all.find? fun flag => flag.names.contains lower).map flag = some term := by
    cases term with
    | flag named => cases named <;> decide
    | _ => decide
  rw [parse, Flag.parse, Blank.trim_bare bare]
  rcases table _ known with listed | ⟨unlisted, named⟩
  · rw [listed]
  · obtain ⟨_, found, rfl⟩ := Option.map_eq_some_iff.mp named
    rw [unlisted, found]

theorem mem_spellings_of_parse {name : String} {term : Term}
    (bare : ∀ character ∈ name.toList, Blank.isBlank character = false)
    (parsed : parse name = .ok term) : name.toLower ∈ term.spellings := by
  have table : ∀ entry ∈ names, entry.1 ∈ entry.2.spellings := by decide
  rw [parse, Flag.parse, Blank.trim_bare bare] at parsed
  rcases looked : names.lookup name.toLower with _ | found
  · rcases search : Flag.all.find? fun flag => flag.names.contains name.toLower with _ | named
    · simp only [looked, search, reduceCtorEq] at parsed
    · simp only [looked, search, Except.ok.injEq] at parsed
      subst parsed
      simpa [spellings] using List.find?_some search
  · simp only [looked, Except.ok.injEq] at parsed
    subst parsed
    obtain ⟨before, after, split, _⟩ := List.lookup_eq_some_iff.mp looked
    exact table (name.toLower, found) (by simp [split])

end Term

theorem TermName.bare (name : TermName) :
    ∀ character ∈ name.text.toList, Blank.isBlank character = false := by
  -- a check over lists, so that deciding it never runs over all characters
  have solid : ∀ term : Term, term.spellings.all (·.toList.all (!Blank.isBlank ·)) = true := by
    intro term
    cases term with
    | flag named => cases named <;> decide
    | _ => decide
  simp only [List.all_eq_true, Bool.not_eq_true'] at solid
  intro character member
  rcases blank : Blank.isBlank character
  · rfl
  · have lower : character ∈ name.text.toLower.toList := by
      unfold String.toLower
      rw [String.toList_map, List.mem_map]
      exact ⟨character, member, Blank.toLower_of_isBlank blank⟩
    exact blank.symm.trans (solid _ _ name.known character lower)

theorem TermName.parse_text (name : TermName) : Term.parse name.text = .ok name.term :=
  Term.parse_of_mem_spellings name.known name.bare

namespace Condition

/-- Some lexemes spell tokens, and a rest of them is left. -/
def Spells (lexemes : List Lexeme) (tokens : List Token) (rest : List Lexeme) : Prop :=
  ∃ taken, lexemes = taken ++ rest ∧ taken.map Lexeme.token = tokens

theorem spells_nil_iff {lexemes rest : List Lexeme} : Spells lexemes [] rest ↔ lexemes = rest := by
  simp [Spells]

theorem spells_cons_iff {lexemes rest : List Lexeme} {token : Token} {tokens : List Token} :
    Spells lexemes (token :: tokens) rest ↔
      ∃ offset later, lexemes = ⟨token, offset⟩ :: later ∧ Spells later tokens rest := by
  constructor
  · rintro ⟨taken, rfl, spelled⟩
    obtain ⟨⟨token, offset⟩, later, rfl, rfl, rfl⟩ := List.map_eq_cons_iff.mp spelled
    exact ⟨offset, later ++ rest, rfl, later, rfl, rfl⟩
  · rintro ⟨offset, _, rfl, taken, rfl, rfl⟩
    exact ⟨⟨token, offset⟩ :: taken, rfl, rfl⟩

theorem Spells.tail {lexeme : Lexeme} {lexemes rest : List Lexeme} {token : Token}
    {tokens : List Token} (spells : Spells (lexeme :: lexemes) (token :: tokens) rest) :
    Spells lexemes tokens rest := by
  obtain ⟨_, _, same, later⟩ := spells_cons_iff.mp spells
  rwa [(List.cons.inj same).2]

theorem spells_append_iff {lexemes rest : List Lexeme} {first later : List Token} :
    Spells lexemes (first ++ later) rest ↔
      ∃ middle, Spells lexemes first middle ∧ Spells middle later rest := by
  constructor
  · rintro ⟨taken, rfl, spelled⟩
    obtain ⟨front, back, rfl, rfl, rfl⟩ := List.map_eq_append_iff.mp spelled
    exact ⟨back ++ rest, ⟨front, by simp, rfl⟩, back, rfl, rfl⟩
  · rintro ⟨_, ⟨front, rfl, rfl⟩, back, rfl, rfl⟩
    exact ⟨front ++ back, by simp, by simp⟩

theorem Spells.cons {lexemes rest : List Lexeme} {tokens : List Token} (token : Token)
    (offset : Nat) (spells : Spells lexemes tokens rest) :
    Spells (⟨token, offset⟩ :: lexemes) (token :: tokens) rest :=
  spells_cons_iff.mpr ⟨offset, lexemes, rfl, spells⟩

theorem Spells.append {lexemes middle rest : List Lexeme} {first later : List Token}
    (spells : Spells lexemes first middle) (more : Spells middle later rest) :
    Spells lexemes (first ++ later) rest :=
  spells_append_iff.mpr ⟨middle, spells, more⟩

theorem Spells.unspaced {lexemes rest : List Lexeme} {tokens : List Token}
    (spells : Spells lexemes tokens rest)
    (unspaced : ∀ lexeme ∈ lexemes, lexeme.token.Unspaced) :
    ∀ lexeme ∈ rest, lexeme.token.Unspaced := by
  obtain ⟨taken, rfl, _⟩ := spells
  intro lexeme member
  exact unspaced lexeme (List.mem_append_right _ member)

def Follows (tokens : List Token) (rest : List Lexeme) : Prop :=
  ∀ next ∈ rest.head?, next.token ∈ tokens

theorem Follows.mono {few many : List Token} {rest : List Lexeme} (follows : Follows few rest)
    (subset : few ⊆ many) : Follows many rest :=
  fun next head => subset (follows next head)

theorem Follows.apart {tokens : List Token} {rest : List Lexeme} (follows : Follows tokens rest)
    {separator : Token} (foreign : separator ∉ tokens) :
    ∀ next ∈ rest.head?, next.token ≠ separator := by
  intro next head same
  exact foreign (same ▸ follows next head)

theorem follows_cons {tokens : List Token} {token : Token} (offset : Nat) (rest : List Lexeme)
    (member : token ∈ tokens) : Follows tokens (⟨token, offset⟩ :: rest) := by
  simpa [Follows] using member

end Condition

namespace Grammar

open Condition (Takes TakesEach Spells Follows readPart gathered)

variable {ending : Nat}

mutual

theorem AnyOf.takes (derivation : AnyOf) {levels : Nat} {lexemes rest : List Lexeme}
    (shallow : derivation.nesting ≤ levels) (spells : Spells lexemes derivation.tokens rest)
    (follows : Follows [.closing] rest) :
    TakesEach .either (gathered .both .all (readPart ending levels)) lexemes
      derivation.conditions rest := by
  cases derivation with
  | only part =>
      rw [AnyOf.tokens] at spells
      rw [AnyOf.nesting] at shallow
      have first := part.takes shallow spells (follows.mono (by simp))
      exact .last (Condition.takes_gathered_iff.mpr ⟨_, first, rfl⟩) (follows.apart (by simp))
  | either part others =>
      rw [AnyOf.nesting] at shallow
      obtain ⟨_, spelled, separated⟩ := Condition.spells_append_iff.mp spells
      obtain ⟨offset, later, rfl, more⟩ := Condition.spells_cons_iff.mp separated
      have first := part.takes (Nat.le_trans (Nat.le_max_left _ _) shallow) spelled
        (Condition.follows_cons offset later (by simp))
      exact .more (Condition.takes_gathered_iff.mpr ⟨_, first, rfl⟩)
        (others.takes (by omega) more follows)

theorem AllOf.takes (derivation : AllOf) {levels : Nat} {lexemes rest : List Lexeme}
    (shallow : derivation.nesting ≤ levels) (spells : Spells lexemes derivation.tokens rest)
    (follows : Follows [.either, .closing] rest) :
    TakesEach .both (readPart ending levels) lexemes derivation.conditions rest := by
  cases derivation with
  | only part =>
      rw [AllOf.tokens] at spells
      rw [AllOf.nesting] at shallow
      exact .last (part.takes shallow spells (follows.mono (by simp))) (follows.apart (by simp))
  | both part others =>
      rw [AllOf.nesting] at shallow
      obtain ⟨_, spelled, separated⟩ := Condition.spells_append_iff.mp spells
      obtain ⟨offset, later, rfl, more⟩ := Condition.spells_cons_iff.mp separated
      exact .more (part.takes (by omega) spelled (Condition.follows_cons offset later (by simp)))
        (others.takes (by omega) more follows)

theorem Part.takes (derivation : Part) {levels : Nat} {lexemes rest : List Lexeme}
    (shallow : derivation.nesting ≤ levels) (spells : Spells lexemes derivation.tokens rest)
    (follows : Follows [.both, .either, .closing] rest) :
    Takes (readPart ending levels) lexemes derivation.condition rest := by
  cases derivation with
  | negated part =>
      rw [Part.nesting] at shallow
      obtain ⟨offset, later, rfl, spelled⟩ := Condition.spells_cons_iff.mp spells
      obtain ⟨fewer, rfl⟩ := Nat.exists_eq_succ_of_ne_zero (show levels ≠ 0 by omega)
      exact Condition.takes_negation_iff.mpr
        ⟨fewer, _, rfl, rfl, part.takes (by omega) spelled follows⟩
  | enclosed inner =>
      rw [Part.nesting] at shallow
      obtain ⟨offset, later, rfl, spelled⟩ := Condition.spells_cons_iff.mp spells
      obtain ⟨_, enclosed, closed⟩ := Condition.spells_append_iff.mp spelled
      obtain ⟨closing, after, rfl, nothing⟩ := Condition.spells_cons_iff.mp closed
      obtain rfl := Condition.spells_nil_iff.mp nothing
      obtain ⟨fewer, rfl⟩ := Nat.exists_eq_succ_of_ne_zero (show levels ≠ 0 by omega)
      have taken := inner.takes (Nat.le_of_succ_le_succ shallow) enclosed
        (Condition.follows_cons closing after (by simp))
      exact Condition.takes_opening_iff.mpr
        ⟨fewer, closing, rfl, Condition.takes_gathered_iff.mpr ⟨_, taken, rfl⟩⟩
  | nonzero name =>
      obtain ⟨offset, later, rfl, spelled⟩ := Condition.spells_cons_iff.mp spells
      obtain rfl := Condition.spells_nil_iff.mp spelled
      refine Condition.takes_name_iff.mpr ⟨_, name.parse_text, .nothing ?_⟩
      intro next head comparison same
      have expected := follows next head
      simp [same] at expected
  | compared name comparison number =>
      obtain ⟨offset, _, rfl, compares⟩ := Condition.spells_cons_iff.mp spells
      obtain ⟨first, _, rfl, numbers⟩ := Condition.spells_cons_iff.mp compares
      obtain ⟨second, later, rfl, nothing⟩ := Condition.spells_cons_iff.mp numbers
      obtain rfl := Condition.spells_nil_iff.mp nothing
      exact Condition.takes_name_iff.mpr ⟨_, name.parse_text, .number⟩

end

def PartsDerived (ending levels : Nat) : Prop :=
  ∀ {lexemes condition rest}, (∀ lexeme ∈ lexemes, lexeme.token.Unspaced) →
    Takes (readPart ending levels) lexemes condition rest → ∃ derivation : Part,
      derivation.nesting ≤ levels ∧ Spells lexemes derivation.tokens rest ∧
        condition = derivation.condition

section

variable {levels : Nat} {lexemes rest : List Lexeme}

theorem exists_allOf_of_takesEach {parts : List Condition}
    (items : PartsDerived ending levels)
    (unspaced : ∀ lexeme ∈ lexemes, lexeme.token.Unspaced)
    (takes : TakesEach .both (readPart ending levels) lexemes parts rest) :
    ∃ derivation : AllOf, derivation.nesting ≤ levels ∧ Spells lexemes derivation.tokens rest ∧
      parts = derivation.conditions := by
  induction takes with
  | last first _ =>
      obtain ⟨part, shallow, spells, rfl⟩ := items unspaced first
      exact ⟨.only part, shallow, spells, rfl⟩
  | @more _ _ offset _ _ _ first _ ih =>
      obtain ⟨part, shallow, spells, rfl⟩ := items unspaced first
      obtain ⟨others, shallowOthers, more, rfl⟩ :=
        ih fun lexeme member => spells.unspaced unspaced lexeme (List.mem_cons_of_mem _ member)
      exact ⟨.both part others, Nat.max_le.mpr ⟨shallow, shallowOthers⟩,
        spells.append (more.cons .both offset), rfl⟩

theorem exists_anyOf_of_takesEach {parts : List Condition}
    (items : PartsDerived ending levels)
    (unspaced : ∀ lexeme ∈ lexemes, lexeme.token.Unspaced)
    (takes : TakesEach .either (gathered .both .all (readPart ending levels)) lexemes parts rest) :
    ∃ derivation : AnyOf, derivation.nesting ≤ levels ∧ Spells lexemes derivation.tokens rest ∧
      parts = derivation.conditions := by
  induction takes with
  | last first _ =>
      obtain ⟨_, each, rfl⟩ := Condition.takes_gathered_iff.mp first
      obtain ⟨part, shallow, spells, rfl⟩ := exists_allOf_of_takesEach items unspaced each
      exact ⟨.only part, shallow, spells, rfl⟩
  | @more _ _ offset _ _ _ first _ ih =>
      obtain ⟨_, each, rfl⟩ := Condition.takes_gathered_iff.mp first
      obtain ⟨part, shallow, spells, rfl⟩ := exists_allOf_of_takesEach items unspaced each
      obtain ⟨others, shallowOthers, more, rfl⟩ :=
        ih fun lexeme member => spells.unspaced unspaced lexeme (List.mem_cons_of_mem _ member)
      exact ⟨.either part others, Nat.max_le.mpr ⟨shallow, shallowOthers⟩,
        spells.append (more.cons .either offset), rfl⟩

theorem exists_part_of_takes_name {name : String} {offset : Nat} {condition : Condition}
    (unspaced : ∀ lexeme ∈ (⟨.name name, offset⟩ :: lexemes : List Lexeme), lexeme.token.Unspaced)
    (takes : Takes (readPart ending levels) (⟨.name name, offset⟩ :: lexemes) condition rest) :
    ∃ derivation : Part, derivation.nesting ≤ levels ∧
      Spells (⟨.name name, offset⟩ :: lexemes) derivation.tokens rest ∧
        condition = derivation.condition := by
  obtain ⟨term, parsed, compares⟩ := Condition.takes_name_iff.mp takes
  have known := Term.mem_spellings_of_parse (unspaced _ (List.mem_cons_self ..)) parsed
  cases compares with
  | number => exact ⟨.compared ⟨name, term, known⟩ _ _, Nat.zero_le _, ⟨[_, _, _], rfl, rfl⟩, rfl⟩
  | nothing => exact ⟨.nonzero ⟨name, term, known⟩, Nat.zero_le _, ⟨[_], rfl, rfl⟩, rfl⟩

end

theorem partsDerived (ending levels : Nat) : PartsDerived ending levels := by
  intro lexemes condition rest unspaced takes
  induction levels generalizing lexemes condition rest with
  | zero =>
      -- Without a level left no sign can be opened, and only names remain.
      obtain ⟨token, offset, later, rfl, rfl | rfl | ⟨name, rfl⟩⟩ := takes.starts
      · obtain ⟨_, _, impossible, _⟩ := Condition.takes_negation_iff.mp takes
        simp at impossible
      · obtain ⟨_, _, impossible, _⟩ := Condition.takes_opening_iff.mp takes
        simp at impossible
      · exact exists_part_of_takes_name unspaced takes
  | succ levels ih =>
      obtain ⟨token, offset, later, rfl, rfl | rfl | ⟨name, rfl⟩⟩ := takes.starts
      · obtain ⟨fewer, inner, same, rfl, taken⟩ := Condition.takes_negation_iff.mp takes
        obtain rfl : levels = fewer := Nat.succ.inj same
        obtain ⟨part, shallow, spells, rfl⟩ :=
          ih (fun lexeme member => unspaced lexeme (List.mem_cons_of_mem _ member)) taken
        exact ⟨.negated part, Nat.succ_le_succ shallow, spells.cons .negation offset, rfl⟩
      · obtain ⟨fewer, closing, same, taken⟩ := Condition.takes_opening_iff.mp takes
        obtain rfl : levels = fewer := Nat.succ.inj same
        obtain ⟨parts, each, rfl⟩ := Condition.takes_gathered_iff.mp taken
        obtain ⟨inner, shallow, spells, rfl⟩ := exists_anyOf_of_takesEach ih
          (fun lexeme member => unspaced lexeme (List.mem_cons_of_mem _ member)) each
        have closed : Spells (⟨.closing, closing⟩ :: rest) [.closing] rest := ⟨[_], rfl, rfl⟩
        exact ⟨.enclosed inner, Nat.succ_le_succ shallow,
          (spells.append closed).cons .opening offset, rfl⟩
      · exact exists_part_of_takes_name unspaced takes

end Grammar

namespace Condition

theorem parse_eq_ok_iff {text : String} {condition : Condition} :
    parse text = .ok condition ↔ ∃ lexemes, Lexeme.scan 0 text.toList = .ok lexemes ∧
      Takes (alternatives (readPart text.utf8ByteSize nestingLimit)) lexemes condition [] := by
  rw [parse]
  constructor
  · intro parsed
    split at parsed
    · simp at parsed
    · simp at parsed
    · rename_i lexemes _ scanned
      split at parsed
      · simp at parsed
      · rename_i shorter read
        cases parsed
        exact ⟨lexemes, scanned, shorter, read⟩
      · simp at parsed
  · rintro ⟨lexemes, scanned, shorter, read⟩
    rcases lexemes with _ | ⟨first, later⟩
    · simp at shorter
    · simp only [scanned, read]

end Condition

/-- A text is cut into the tokens of a derivation that opens no more than sixty-four signs
at once. -/
def Grammar.AnyOf.Derives (sentence : AnyOf) (text : String) : Prop :=
  (∃ lexemes, Lexeme.scan 0 text.toList = .ok lexemes ∧
    lexemes.map Lexeme.token = sentence.tokens) ∧ sentence.nesting ≤ 64

namespace Condition

theorem parse_of_derives {text : String} {sentence : Grammar.AnyOf}
    (derives : sentence.Derives text) : parse text = .ok sentence.condition := by
  obtain ⟨⟨lexemes, scanned, spelled⟩, shallow⟩ := derives
  have spells : Spells lexemes sentence.tokens [] := ⟨lexemes, by simp, spelled⟩
  have nothing : Follows [.closing] [] := by simp [Follows]
  exact parse_eq_ok_iff.mpr ⟨lexemes, scanned,
    takes_gathered_iff.mpr ⟨_, sentence.takes shallow spells nothing, rfl⟩⟩

theorem exists_derives_of_parse {text : String} {condition : Condition}
    (parsed : parse text = .ok condition) :
    ∃ sentence : Grammar.AnyOf, sentence.Derives text ∧ condition = sentence.condition := by
  obtain ⟨lexemes, scanned, taken⟩ := parse_eq_ok_iff.mp parsed
  obtain ⟨parts, each, rfl⟩ := takes_gathered_iff.mp taken
  obtain ⟨sentence, shallow, ⟨consumed, all, spelled⟩, rfl⟩ :=
    Grammar.exists_anyOf_of_takesEach (Grammar.partsDerived _ _)
      (Lexeme.scan_unspaced scanned) each
  rw [List.append_nil] at all
  exact ⟨sentence, ⟨⟨lexemes, scanned, all ▸ spelled⟩, shallow⟩, rfl⟩

/-- A text is read exactly if the grammar has a derivation for it that does not nest too deeply,
and what is read then means what the derivation means, in every situation. -/
theorem parse_reads_grammar (text : String) :
    ((∃ condition, parse text = .ok condition) ↔
      ∃ sentence : Grammar.AnyOf, sentence.Derives text) ∧
    ∀ condition, parse text = .ok condition →
      ∀ sentence : Grammar.AnyOf, sentence.Derives text →
        ∀ situation, condition.evaluate situation = sentence.meaning situation := by
  refine ⟨⟨?_, ?_⟩, ?_⟩
  · rintro ⟨condition, parsed⟩
    obtain ⟨sentence, derives, _⟩ := exists_derives_of_parse parsed
    exact ⟨sentence, derives⟩
  · rintro ⟨sentence, derives⟩
    exact ⟨sentence.condition, parse_of_derives derives⟩
  · intro condition parsed sentence derives situation
    have same : condition = sentence.condition :=
      Except.ok.inj (parsed.symm.trans (parse_of_derives derives))
    rw [same, sentence.evaluate_condition]

def sampleSentence : Grammar.AnyOf :=
  .only (.both (.compared ⟨"A", .a, by decide +kernel⟩ .equal 1)
    (.only (.negated (.enclosed (.either (.only (.nonzero ⟨"x", .x, by decide +kernel⟩))
      (.only (.only (.nonzero ⟨"y", .y, by decide +kernel⟩))))))))

theorem sampleSentence_derives : sampleSentence.Derives "A==1&& !(x||y)" := by
  refine ⟨⟨[⟨.name "A", 0⟩, ⟨.comparison .equal, 1⟩, ⟨.number 1, 3⟩, ⟨.both, 4⟩, ⟨.negation, 7⟩,
    ⟨.opening, 8⟩, ⟨.name "x", 9⟩, ⟨.either, 10⟩, ⟨.name "y", 12⟩, ⟨.closing, 13⟩], ?_, rfl⟩, ?_⟩
  · decide +kernel
  · decide

theorem sample_reads_grammar :
    sampleSentence.Derives "A==1&& !(x||y)" ∧
      parse "A==1&& !(x||y)" = .ok sampleSentence.condition ∧
      (∃ condition, parse "A==1&& !(x||y)" = .ok condition) ∧
      ∀ situation, sampleSentence.condition.evaluate situation = sampleSentence.meaning situation :=
  have derives := sampleSentence_derives
  have parsed := parse_of_derives derives
  ⟨derives, parsed, (parse_reads_grammar _).1.mpr ⟨_, derives⟩,
    (parse_reads_grammar _).2 _ parsed _ derives⟩

end Condition

end Nmos6502
