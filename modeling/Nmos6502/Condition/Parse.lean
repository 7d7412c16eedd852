import Nmos6502.Condition
import Nmos6502.Condition.Token

/-!
Conditions read from text, by the grammar

    any    := all ( "||" all )*
    all    := part ( "&&" part )*
    part   := "!" part | "(" any ")" | term [ comparison number ]

in which a term alone means that it differs from zero. At most sixty-four signs "!" and
"(" may be open at once.
-/

namespace Nmos6502.Condition

structure Parsed (lexemes : List Lexeme) (α : Type) where
  value : α
  rest : List Lexeme
  shorter : rest.length < lexemes.length

abbrev Reading (α : Type) :=
  (lexemes : List Lexeme) → Except ConditionError (Parsed lexemes α)

def separated {α : Type} (separator : Token) (item : Reading α) : Reading (List α) :=
  fun lexemes =>
    match item lexemes with
    | .error error => .error error
    | .ok ⟨value, [], shorter⟩ => .ok ⟨[value], [], shorter⟩
    | .ok ⟨value, next :: rest, shorter⟩ =>
        if next.token = separator then
          match separated separator item rest with
          | .error error => .error error
          | .ok more =>
              .ok ⟨value :: more.value, more.rest, by
                have bound := more.shorter
                simp only [List.length_cons] at shorter
                omega⟩
        else .ok ⟨[value], next :: rest, shorter⟩
termination_by lexemes => lexemes.length
decreasing_by
  simp only [List.length_cons] at shorter
  omega

def gather (combine : List Condition → Condition) : List Condition → Condition
  | [part] => part
  | parts => combine parts

def gathered (separator : Token) (combine : List Condition → Condition)
    (item : Reading Condition) : Reading Condition :=
  fun lexemes =>
    match separated separator item lexemes with
    | .error error => .error error
    | .ok parsed => .ok ⟨gather combine parsed.value, parsed.rest, parsed.shorter⟩

def alternatives (part : Reading Condition) : Reading Condition :=
  gathered .either any (gathered .both all part)

/-- How many signs may be open at once. -/
def nestingLimit : Nat := 64

def offsetOr (ending : Nat) : List Lexeme → Nat
  | [] => ending
  | lexeme :: _ => lexeme.offset

def readComparison (ending : Nat) (term : Term) (lexemes : List Lexeme) :
    Except ConditionError (Condition × { rest : List Lexeme // rest.length ≤ lexemes.length }) :=
  match lexemes with
  | ⟨.comparison comparison, _⟩ :: ⟨.number value, _⟩ :: rest =>
      .ok (compare term comparison value, ⟨rest, by simp only [List.length_cons]; omega⟩)
  | ⟨.comparison _, _⟩ :: rest => .error (.malformed (offsetOr ending rest) .expectedNumber)
  | rest => .ok (compare term .different 0, ⟨rest, Nat.le_refl _⟩)

def readPart (ending : Nat) (levels : Nat) : Reading Condition :=
  fun lexemes =>
    match lexemes with
    | [] => .error (.malformed ending .unexpectedEnd)
    | ⟨.negation, offset⟩ :: rest =>
        match levels with
        | 0 => .error (.malformed offset (.nestedTooDeeply nestingLimit))
        | levels + 1 =>
            match readPart ending levels rest with
            | .error error => .error error
            | .ok inner =>
                .ok ⟨not inner.value, inner.rest, Nat.lt_succ_of_lt inner.shorter⟩
    | ⟨.opening, offset⟩ :: rest =>
        match levels with
        | 0 => .error (.malformed offset (.nestedTooDeeply nestingLimit))
        | levels + 1 =>
            match alternatives (readPart ending levels) rest with
            | .error error => .error error
            | .ok ⟨value, ⟨.closing, _⟩ :: after, shorter⟩ =>
                .ok ⟨value, after, by simp only [List.length_cons] at shorter ⊢; omega⟩
            | .ok _ => .error (.malformed offset .unclosedParenthesis)
    | ⟨.name name, _⟩ :: rest =>
        match Term.parse name with
        | .error error => .error error
        | .ok term =>
            match readComparison ending term rest with
            | .error error => .error error
            | .ok (condition, ⟨after, bound⟩) => .ok ⟨condition, after, Nat.lt_succ_of_le bound⟩
    | ⟨_, offset⟩ :: _ => .error (.malformed offset .expectedTerm)

def parse (text : String) : Except ConditionError Condition :=
  match Lexeme.scan 0 text.toList with
  | .error error => .error error
  | .ok [] => .error (.malformed 0 .emptyExpression)
  | .ok lexemes =>
      match alternatives (readPart text.utf8ByteSize nestingLimit) lexemes with
      | .error error => .error error
      | .ok ⟨condition, [], _⟩ => .ok condition
      | .ok ⟨_, next :: _, _⟩ => .error (.malformed next.offset .trailingInput)

end Nmos6502.Condition
