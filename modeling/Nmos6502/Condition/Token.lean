import Nmos6502.Condition.Term

/-!
The text of a condition cut into tokens. All tokens are plain ASCII, so that a token has
as many bytes as characters.
-/

namespace Nmos6502

inductive Token
  | name (text : String)
  | number (value : UInt64)
  | comparison (comparison : Comparison)
  | both
  | either
  | negation
  | opening
  | closing
  deriving DecidableEq, Repr

structure Lexeme where
  token : Token
  offset : Nat
  deriving DecidableEq, Repr

namespace Numeral

def digitValue (digit : Char) : Nat :=
  if digit.isDigit then digit.toNat - '0'.toNat
  else if digit.isUpper then digit.toNat - 'A'.toNat + 10
  else digit.toNat - 'a'.toNat + 10

def value? (radix : Nat) (digits : List Char) : Option UInt64 :=
  let value := digits.foldl (fun value digit => value * radix + digitValue digit) 0
  if digits = [] ∨ (digits.any fun digit => radix ≤ digitValue digit) = true ∨ UInt64.size ≤ value then
    none
  else some (UInt64.ofNat value)

def radixMark : List Char → Nat × Nat
  | '$' :: _ => (16, 1)
  | '%' :: _ => (2, 1)
  | '0' :: 'x' :: _ | '0' :: 'X' :: _ => (16, 2)
  | _ => (10, 0)

end Numeral

namespace Lexeme

/-- Blanks between tokens; fewer than Unicode has. -/
def isBlank (character : Char) : Bool :=
  character == ' ' || character == '\t' || character == '\n' || character == '\x0C' ||
    character == '\r'

def startsNumeral (character : Char) : Bool :=
  character == '$' || character == '%' || character.isDigit

def startsName (character : Char) : Bool :=
  character.isAlpha || character == '_'

def continuesName (character : Char) : Bool :=
  character.isAlphanum || character == '_'

/-- The numeral at the start of a text and its length. It takes in every letter and digit
that follows its mark. -/
def readNumeral (offset : Nat) (text : List Char) : Except ConditionError (Token × Nat) :=
  let (radix, mark) := Numeral.radixMark text
  let digits := (text.drop mark).takeWhile Char.isAlphanum
  match Numeral.value? radix digits with
  | some value => .ok (.number value, mark + digits.length)
  | none =>
      .error (.malformed offset (.invalidNumber (String.ofList (text.take mark ++ digits))))

def readToken (offset : Nat) (first : Char) (rest : List Char) :
    Except ConditionError (Token × Nat) :=
  match first, rest with
  | '&', '&' :: _ => .ok (.both, 2)
  | '|', '|' :: _ => .ok (.either, 2)
  | '=', '=' :: _ => .ok (.comparison .equal, 2)
  | '!', '=' :: _ => .ok (.comparison .different, 2)
  | '<', '=' :: _ => .ok (.comparison .atMost, 2)
  | '>', '=' :: _ => .ok (.comparison .atLeast, 2)
  | '<', _ => .ok (.comparison .less, 1)
  | '>', _ => .ok (.comparison .greater, 1)
  | '!', _ => .ok (.negation, 1)
  | '(', _ => .ok (.opening, 1)
  | ')', _ => .ok (.closing, 1)
  | _, _ =>
      if startsNumeral first then readNumeral offset (first :: rest)
      else if startsName first then
        let text := first :: rest.takeWhile continuesName
        .ok (.name (String.ofList text), text.length)
      else .error (.malformed offset (.unexpectedCharacter first))

def scan (offset : Nat) : List Char → Except ConditionError (List Lexeme)
  | [] => .ok []
  | first :: rest =>
      if isBlank first then scan (offset + 1) rest
      else
        match readToken offset first rest with
        | .error error => .error error
        | .ok (token, length) =>
            match scan (offset + length) (rest.drop (length - 1)) with
            | .error error => .error error
            | .ok lexemes => .ok (⟨token, offset⟩ :: lexemes)
termination_by text => text.length
decreasing_by all_goals simp only [List.length_drop, List.length_cons]; omega

end Lexeme

end Nmos6502
