import Nmos6502.Condition.Term

/-!
Conditions of breakpoints and watchpoints: comparisons joined by "all", "any" and "not",
and named predicates from outside. Parts are decided from left to right, and no further
than the answer needs.
-/

namespace Nmos6502

inductive Condition
  | compare (term : Term) (comparison : Comparison) (value : UInt64)
  | all (parts : List Condition)
  | any (parts : List Condition)
  | not (part : Condition)
  | custom (name : String) (predicate : Situation → Except ConditionError Bool)

namespace Condition

def notYetHit : Condition := compare .hitCount .less 1

mutual

def evaluate (situation : Situation) : Condition → Except ConditionError Bool
  | compare term comparison value =>
      match situation.valueOf term with
      | .ok found => .ok (comparison.holds found value.toNat)
      | .error error => .error error
  | all parts => evaluateAll situation parts
  | any parts => evaluateAny situation parts
  | not part =>
      match evaluate situation part with
      | .ok result => .ok (!result)
      | .error error => .error error
  | custom _ predicate => predicate situation

def evaluateAll (situation : Situation) : List Condition → Except ConditionError Bool
  | [] => .ok true
  | part :: rest =>
      match evaluate situation part with
      | .ok true => evaluateAll situation rest
      | decided => decided

def evaluateAny (situation : Situation) : List Condition → Except ConditionError Bool
  | [] => .ok false
  | part :: rest =>
      match evaluate situation part with
      | .ok false => evaluateAny situation rest
      | decided => decided

end

mutual

/-- In the notation that is also read, except for empty lists and predicates from outside. -/
def text : Condition → String
  | compare term comparison value =>
      term.text ++ " " ++ comparison.text ++ " " ++ toString value.toNat
  | all parts => "(" ++ joined " && " parts ++ ")"
  | any parts => "(" ++ joined " || " parts ++ ")"
  | not part => "!(" ++ text part ++ ")"
  | custom name _ => "<" ++ name ++ ">"

def joined (separator : String) : List Condition → String
  | [] => ""
  | [part] => text part
  | part :: next :: rest => text part ++ separator ++ joined separator (next :: rest)

end

end Condition

end Nmos6502
