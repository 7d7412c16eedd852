import Nmos6502.Registers

/-!
What a condition can ask about: the values it reads, the comparisons it makes, and the
reasons why it can have no answer.
-/

namespace Nmos6502

inductive Term
  | a
  | x
  | y
  | stackPointer
  | programCounter
  | flag (flag : Flag)
  | hitCount
  | lastValue
  deriving DecidableEq, Repr

inductive TextFault
  | unexpectedCharacter (character : Char)
  | invalidNumber (spelling : String)
  | emptyExpression
  | trailingInput
  | nestedTooDeeply (levels : Nat)
  | unclosedParenthesis
  | expectedNumber
  | expectedTerm
  | unexpectedEnd
  deriving DecidableEq, Repr

def TextFault.message : TextFault → String
  | unexpectedCharacter character => "unexpected character `" ++ character.toString ++ "`"
  | invalidNumber spelling => "invalid number `" ++ spelling ++ "`"
  | emptyExpression => "empty expression"
  | trailingInput => "unexpected trailing input"
  | nestedTooDeeply levels => "nesting deeper than " ++ toString levels ++ " levels"
  | unclosedParenthesis => "unclosed `(`"
  | expectedNumber => "expected a number"
  | expectedTerm => "expected a term, `!` or `(`"
  | unexpectedEnd => "unexpected end of expression"

inductive ConditionError
  /-- The position counts the bytes before the fault. -/
  | malformed (position : Nat) (fault : TextFault)
  | unknownTerm (name : String)
  | unavailable (term : Term)
  | custom (message : String)
  deriving DecidableEq, Repr

namespace Term

def text : Term → String
  | a => "a"
  | x => "x"
  | y => "y"
  | stackPointer => "sp"
  | programCounter => "pc"
  | flag .unused => "u"
  | flag other => other.letter.toLower.toString
  | hitCount => "hits"
  | lastValue => "value"

def names : List (String × Term) :=
  [("a", a), ("x", x), ("y", y), ("sp", stackPointer), ("pc", programCounter),
   ("hits", hitCount), ("hit_count", hitCount), ("hitcount", hitCount),
   ("value", lastValue), ("last_value", lastValue), ("lastvalue", lastValue)]

def parse (name : String) : Except ConditionError Term :=
  match names.lookup name.toLower with
  | some term => .ok term
  | none =>
      match Flag.parse name with
      | .ok named => .ok (flag named)
      | .error _ => .error (.unknownTerm name)

end Term

def ConditionError.message : ConditionError → String
  | malformed position fault => "parse error at offset " ++ toString position ++ ": " ++ fault.message
  | unknownTerm name => "unknown term `" ++ name ++ "`"
  | unavailable term => "term `" ++ term.text ++ "` is not available here"
  | custom message => message

inductive Comparison
  | equal
  | different
  | less
  | atMost
  | greater
  | atLeast
  deriving DecidableEq, Repr

namespace Comparison

def holds : Comparison → Nat → Nat → Bool
  | equal, left, right => left == right
  | different, left, right => left != right
  | less, left, right => left < right
  | atMost, left, right => left ≤ right
  | greater, left, right => right < left
  | atLeast, left, right => right ≤ left

def text : Comparison → String
  | equal => "=="
  | different => "!="
  | less => "<"
  | atMost => "<="
  | greater => ">"
  | atLeast => ">="

end Comparison

structure Situation where
  registers : Registers
  hitCount : Nat
  /-- Nothing for a breakpoint, and nothing while a watchpoint has seen no value. -/
  lastValue : Option UInt8
  deriving DecidableEq, Repr

def Situation.valueOf (situation : Situation) : Term → Except ConditionError Nat
  | .a => .ok situation.registers.a.toNat
  | .x => .ok situation.registers.x.toNat
  | .y => .ok situation.registers.y.toNat
  | .stackPointer => .ok situation.registers.stackPointer.toNat
  | .programCounter => .ok situation.registers.programCounter.toNat
  | .flag flag => .ok (situation.registers.status.get flag).toNat
  | .hitCount => .ok situation.hitCount
  | .lastValue =>
      match situation.lastValue with
      | some value => .ok value.toNat
      | none => .error (.unavailable .lastValue)

end Nmos6502
