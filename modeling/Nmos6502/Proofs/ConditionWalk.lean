import Nmos6502.Proofs.ByteScan
import Nmos6502.Proofs.ConditionReading

/-!
Reading a condition with a cursor. The cursor walks over the tokens of a text and may come to lie
past the last of them. The walk stops where a pass of a loop or a deeper reading starts before a
token has been taken in; that happens with no text, and the walk comes to what the text is read as.
-/

namespace Nmos6502.Condition

/-- A walk from a cursor on gives a value and the cursor after it. -/
abbrev Walk (α : Type) := Nat → Checked (α × Nat)

section

variable {α : Type} (tokens : List Lexeme)

def tokenAt (cursor : Nat) : Option Token :=
  tokens[cursor]?.map Lexeme.token

def offsetAt (ending cursor : Nat) : Nat :=
  tokens[cursor]?.elim ending Lexeme.offset

def Consumes (cursor after : Nat) : Prop :=
  (tokens.drop after).length < (tokens.drop cursor).length

instance (cursor after : Nat) : Decidable (Consumes tokens cursor after) :=
  inferInstanceAs (Decidable (_ < _))

def walkPasses (separator : Token) (item : Walk α) (cursor : Nat) : Checked (List α × Nat) :=
  if tokenAt tokens cursor = some separator then do
    let (value, after) ← item (cursor + 1)
    if _ : Consumes tokens cursor after then do
      let (more, last) ← walkPasses separator item after
      pure (value :: more, last)
    else .failed
  else pure ([], cursor)
termination_by (tokens.drop cursor).length
decreasing_by assumption

def walkSeparated (separator : Token) (item : Walk α) : Walk (List α) :=
  fun cursor => do
    let (first, after) ← item cursor
    let (more, last) ← walkPasses tokens separator item after
    pure (first :: more, last)

def walkGathered (separator : Token) (combine : List Condition → Condition)
    (item : Walk Condition) : Walk Condition :=
  fun cursor => do
    let (parts, after) ← walkSeparated tokens separator item cursor
    pure (gather combine parts, after)

def walkAlternatives (part : Walk Condition) : Walk Condition :=
  walkGathered tokens .either any (walkGathered tokens .both all part)

def walkDeeper (cursor : Nat) (deeper : Walk Condition) : Checked (Condition × Nat) :=
  if Consumes tokens cursor (cursor + 1) then deeper (cursor + 1) else .failed

def walkPart (ending levels : Nat) : Walk Condition :=
  fun cursor =>
    match tokenAt tokens cursor with
    | none => throw (.malformed (offsetAt tokens ending cursor) .unexpectedEnd)
    | some .negation =>
        match levels with
        | 0 => throw (.malformed (offsetAt tokens ending cursor) (.nestedTooDeeply nestingLimit))
        | levels + 1 => do
            let (inner, after) ← walkDeeper tokens cursor (walkPart ending levels)
            pure (not inner, after)
    | some .opening =>
        match levels with
        | 0 => throw (.malformed (offsetAt tokens ending cursor) (.nestedTooDeeply nestingLimit))
        | levels + 1 => do
            let (inner, after) ←
              walkDeeper tokens cursor (walkAlternatives tokens (walkPart ending levels))
            match tokenAt tokens after with
            | some .closing => pure (inner, after + 1)
            | _ => throw (.malformed (offsetAt tokens ending cursor) .unclosedParenthesis)
    | some (.name name) => do
        let term ← Checked.of (Term.parse name)
        match tokenAt tokens (cursor + 1) with
        | some (.comparison comparison) =>
            match tokenAt tokens (cursor + 2) with
            | some (.number value) => pure (compare term comparison value, cursor + 3)
            | _ => throw (.malformed (offsetAt tokens ending (cursor + 2)) .expectedNumber)
        | _ => pure (compare term .different 0, cursor + 1)
    | some _ => throw (.malformed (offsetAt tokens ending cursor) .expectedTerm)

end

def walkText (text : String) : Checked Condition := do
  let tokens ← Lexeme.scanBytes text 0
  if tokens.isEmpty then throw (.malformed 0 .emptyExpression)
  else do
    let (condition, after) ←
      walkAlternatives tokens (walkPart tokens text.utf8ByteSize nestingLimit) 0
    match tokens[after]? with
    | none => pure condition
    | some next => throw (.malformed next.offset .trailingInput)

section

variable {α : Type} {tokens : List Lexeme}

/-- A walk comes to what a reading comes to, and its cursor to the tokens that are left. -/
def ComesTo (tokens : List Lexeme) {lexemes : List Lexeme} (walked : Checked (α × Nat)) :
    Except ConditionError (Parsed lexemes α) → Prop
  | .error error => walked = .of (.error error)
  | .ok parsed => ∃ after, walked = .of (.ok (parsed.value, after)) ∧
      tokens.drop after = parsed.rest

def Retraces (tokens : List Lexeme) (walk : Walk α) (reading : Reading α) : Prop :=
  ∀ cursor, ComesTo tokens (walk cursor) (reading (tokens.drop cursor))

theorem tokenAt_eq {cursor : Nat} {lexemes : List Lexeme} (left : tokens.drop cursor = lexemes) :
    tokenAt tokens cursor = lexemes.head?.map Lexeme.token := by
  rw [tokenAt, ← List.head?_drop, left]

theorem offsetAt_eq {cursor : Nat} {lexemes : List Lexeme} (left : tokens.drop cursor = lexemes)
    (ending : Nat) : offsetAt tokens ending cursor = offsetOr ending lexemes := by
  rw [offsetAt, ← List.head?_drop, left]
  cases lexemes <;> rfl

theorem drop_succ {cursor : Nat} {next : Lexeme} {rest : List Lexeme}
    (left : tokens.drop cursor = next :: rest) : tokens.drop (cursor + 1) = rest := by
  rw [← List.drop_drop, left]
  rfl

theorem consumes_succ {cursor : Nat} {next : Lexeme} {rest : List Lexeme}
    (left : tokens.drop cursor = next :: rest) : Consumes tokens cursor (cursor + 1) := by
  rw [Consumes, drop_succ left, left]
  exact Nat.lt_succ_self _

theorem Parsed.consumes {cursor after : Nat} (parsed : Parsed (tokens.drop cursor) α)
    (left : tokens.drop after = parsed.rest) : Consumes tokens cursor after := by
  rw [Consumes, left]
  exact parsed.shorter

theorem walkPasses_end {item : Walk α} {separator : Token} {cursor : Nat}
    (apart : tokenAt tokens cursor ≠ some separator) :
    walkPasses tokens separator item cursor = .of (.ok ([], cursor)) := by
  rw [walkPasses, if_neg apart]
  rfl

section

variable {item : Walk α} {reading : Reading α} (items : Retraces tokens item reading)

include items

theorem walkPasses_separator {separator : Token} {cursor : Nat}
    (separates : tokenAt tokens cursor = some separator)
    (consumes : Consumes tokens cursor (cursor + 1)) :
    walkPasses tokens separator item cursor =
      walkSeparated tokens separator item (cursor + 1) := by
  have first := items (cursor + 1)
  rw [walkPasses, if_pos separates, walkSeparated]
  rcases read : reading (tokens.drop (cursor + 1)) with error | parsed
  · rw [read] at first
    rw [first, Checked.of_error_bind, Checked.of_error_bind]
  · rw [read] at first
    obtain ⟨after, walked, left⟩ := first
    have further : Consumes tokens cursor after :=
      Nat.lt_trans (parsed.consumes left) consumes
    rw [walked, Checked.of_ok_bind, Checked.of_ok_bind]
    simp only
    rw [dif_pos further]

theorem Retraces.separated (separator : Token) :
    Retraces tokens (walkSeparated tokens separator item)
      (Condition.separated separator reading) := by
  intro cursor
  -- a pass of the loop goes on as the start of a list of fewer tokens
  induction size : (tokens.drop cursor).length using Nat.strongRecOn generalizing cursor with
  | ind size ih =>
      subst size
      have first := items cursor
      rw [Condition.separated, walkSeparated]
      rcases read : reading (tokens.drop cursor) with error | ⟨value, _ | ⟨next, rest⟩, shorter⟩
      · rw [read] at first
        rw [first, Checked.of_error_bind]
        rfl
      · rw [read] at first
        obtain ⟨after, walked, left⟩ := first
        have ends : tokenAt tokens after ≠ some separator := by simp [tokenAt_eq left]
        rw [walked, Checked.of_ok_bind]
        simp only
        rw [walkPasses_end ends]
        exact ⟨after, rfl, left⟩
      · rw [read] at first
        obtain ⟨after, walked, left⟩ := first
        rw [walked, Checked.of_ok_bind]
        simp only
        by_cases separates : next.token = separator
        · have here : tokenAt tokens after = some separator := by
            simp [tokenAt_eq left, separates]
          have consumes := consumes_succ left
          have rests := drop_succ left
          have fewer : (tokens.drop (after + 1)).length < (tokens.drop cursor).length := by
            rw [rests]
            simp only [List.length_cons] at shorter
            omega
          have later := ih _ fewer (after + 1) rfl
          rw [walkPasses_separator items here consumes, if_pos separates]
          rw [rests] at later
          rcases more : Condition.separated separator reading rest with error | parsed
          · rw [more] at later
            rw [later, Checked.of_error_bind]
            rfl
          · rw [more] at later
            obtain ⟨last, walkedOn, remain⟩ := later
            rw [walkedOn, Checked.of_ok_bind]
            exact ⟨last, rfl, remain⟩
        · have ends : tokenAt tokens after ≠ some separator := by
            simpa [tokenAt_eq left] using separates
          rw [walkPasses_end ends, if_neg separates]
          exact ⟨after, rfl, left⟩

end

variable {walk : Walk Condition} {part : Reading Condition}

theorem Retraces.gathered {item : Walk Condition} {reading : Reading Condition}
    (items : Retraces tokens item reading) (separator : Token)
    (combine : List Condition → Condition) :
    Retraces tokens (walkGathered tokens separator combine item)
      (gathered separator combine reading) := by
  intro cursor
  have parts := items.separated separator cursor
  rw [walkGathered, Condition.gathered]
  rcases read : Condition.separated separator reading (tokens.drop cursor) with error | parsed
  · rw [read] at parts
    rw [parts, Checked.of_error_bind]
    rfl
  · rw [read] at parts
    obtain ⟨after, walked, left⟩ := parts
    rw [walked, Checked.of_ok_bind]
    exact ⟨after, rfl, left⟩

theorem Retraces.alternatives (parts : Retraces tokens walk part) :
    Retraces tokens (walkAlternatives tokens walk) (alternatives part) :=
  (parts.gathered .both all).gathered .either any

end

section

variable {tokens : List Lexeme} {ending levels cursor offset : Nat} {rest : List Lexeme}

theorem walkDeeper_eq {next : Lexeme} (left : tokens.drop cursor = next :: rest)
    (deeper : Walk Condition) : walkDeeper tokens cursor deeper = deeper (cursor + 1) := by
  rw [walkDeeper, if_pos (consumes_succ left)]

theorem comesTo_negation (left : tokens.drop cursor = ⟨.negation, offset⟩ :: rest)
    (deeper : ∀ fewer, levels = fewer + 1 →
      Retraces tokens (walkPart tokens ending fewer) (readPart ending fewer)) :
    ComesTo tokens (walkPart tokens ending levels cursor)
      (readPart ending levels (⟨.negation, offset⟩ :: rest)) := by
  have here : tokenAt tokens cursor = some .negation := tokenAt_eq left
  rcases levels with _ | fewer <;> rw [walkPart.eq_def, readPart, here]
  · simp only
    rw [offsetAt_eq left]
    rfl
  · have inner := deeper fewer rfl (cursor + 1)
    rw [drop_succ left] at inner
    simp only
    rw [walkDeeper_eq left]
    rcases read : readPart ending fewer rest with error | parsed
    · rw [read] at inner
      rw [inner, Checked.of_error_bind]
      rfl
    · rw [read] at inner
      obtain ⟨after, walked, remain⟩ := inner
      rw [walked, Checked.of_ok_bind]
      exact ⟨after, rfl, remain⟩

theorem comesTo_opening (left : tokens.drop cursor = ⟨.opening, offset⟩ :: rest)
    (deeper : ∀ fewer, levels = fewer + 1 →
      Retraces tokens (walkPart tokens ending fewer) (readPart ending fewer)) :
    ComesTo tokens (walkPart tokens ending levels cursor)
      (readPart ending levels (⟨.opening, offset⟩ :: rest)) := by
  have here : tokenAt tokens cursor = some .opening := tokenAt_eq left
  -- Both read the alternatives with one level less, and then ask for a closing sign.
  rcases levels with _ | fewer <;> rw [walkPart.eq_def, readPart, here]
  · simp only
    rw [offsetAt_eq left]
    rfl
  · have inner := (deeper fewer rfl).alternatives (cursor + 1)
    rw [drop_succ left] at inner
    simp only
    rw [walkDeeper_eq left]
    rcases read : alternatives (readPart ending fewer) rest with error | ⟨value, remaining, shorter⟩
    · rw [read] at inner
      rw [inner, Checked.of_error_bind]
      rfl
    · rw [read] at inner
      obtain ⟨after, walked, remain⟩ := inner
      rw [walked, Checked.of_ok_bind, offsetAt_eq left]
      simp only
      rw [tokenAt_eq remain]
      rcases remaining with _ | ⟨⟨token, closing⟩, later⟩
      · rfl
      · cases token
        case closing => exact ⟨after + 1, rfl, drop_succ remain⟩
        all_goals rfl

theorem comesTo_name {name : String} (left : tokens.drop cursor = ⟨.name name, offset⟩ :: rest) :
    ComesTo tokens (walkPart tokens ending levels cursor)
      (readPart ending levels (⟨.name name, offset⟩ :: rest)) := by
  have here : tokenAt tokens cursor = some (.name name) := tokenAt_eq left
  rw [walkPart.eq_def, readPart, here]
  simp only
  rcases Term.parse name with error | term
  · rw [Checked.of_error_bind]
    rfl
  · rw [Checked.of_ok_bind]
    have next := drop_succ left
    rw [tokenAt_eq next]
    rcases rest with _ | ⟨⟨token, _⟩, later⟩
    · exact ⟨_, rfl, next⟩
    · cases token
      case comparison comparison =>
        have second := drop_succ next
        simp only [List.head?_cons, Option.map_some]
        rw [tokenAt_eq second, offsetAt_eq second]
        rcases later with _ | ⟨⟨token, _⟩, later⟩
        · rfl
        · cases token
          case number value => exact ⟨_, rfl, drop_succ second⟩
          all_goals rfl
      all_goals exact ⟨_, rfl, next⟩

theorem retraces_part (tokens : List Lexeme) (ending levels : Nat) :
    Retraces tokens (walkPart tokens ending levels) (readPart ending levels) := by
  induction levels using Nat.strongRecOn with
  | ind levels ih =>
      have deeper : ∀ fewer, levels = fewer + 1 →
          Retraces tokens (walkPart tokens ending fewer) (readPart ending fewer) := by
        rintro fewer rfl
        exact ih fewer (Nat.lt_succ_self fewer)
      intro cursor
      rcases left : tokens.drop cursor with _ | ⟨⟨token, offset⟩, rest⟩
      · rw [walkPart.eq_def, readPart.eq_def, tokenAt_eq left, offsetAt_eq left]
        rfl
      · cases token with
        | negation => exact comesTo_negation left deeper
        | opening => exact comesTo_opening left deeper
        | name name => exact comesTo_name left
        | _ =>
            rw [walkPart.eq_def, readPart.eq_def, tokenAt_eq left, offsetAt_eq left]
            rfl

end

/-- With any text the walk comes to what the text is read as, and no check fails. -/
theorem walkText_eq (text : String) : walkText text = .of (parse text) := by
  rw [walkText, parse, Lexeme.scanBytes_zero]
  rcases Lexeme.scan 0 text.toList with error | tokens
  · rw [Checked.of_error_bind]
  · rw [Checked.of_ok_bind]
    rcases tokens with _ | ⟨first, rest⟩
    · rfl
    · have whole := (retraces_part (first :: rest) text.utf8ByteSize nestingLimit).alternatives 0
      rw [List.drop_zero] at whole
      simp only [List.isEmpty_cons, Bool.false_eq_true, if_false]
      rcases read : alternatives (readPart text.utf8ByteSize nestingLimit) (first :: rest) with
        error | ⟨condition, remaining, shorter⟩
      · rw [read] at whole
        rw [whole, Checked.of_error_bind]
      · rw [read] at whole
        obtain ⟨after, walked, left⟩ := whole
        rw [walked, Checked.of_ok_bind, ← List.head?_drop, left]
        cases remaining <;> rfl

end Nmos6502.Condition
