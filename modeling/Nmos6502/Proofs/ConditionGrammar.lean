import Nmos6502.Condition.Parse

/-!
The language of conditions by its grammar, apart from how a text is read:

    any    := all ( "||" all )*
    all    := part ( "&&" part )*
    part   := "!" part | "(" any ")" | term [ comparison number ]

A derivation has the tokens that it spells, the number of signs "!" and "(" that are open in
it at once, and a meaning in every situation. The condition that is kept for a derivation has
that meaning too.
-/

namespace Nmos6502

def Term.spellings : Term → List String
  | a => ["a"]
  | x => ["x"]
  | y => ["y"]
  | stackPointer => ["sp"]
  | programCounter => ["pc"]
  | flag named => named.names
  | hitCount => ["hits", "hit_count", "hitcount"]
  | lastValue => ["value", "last_value", "lastvalue"]

structure TermName where
  text : String
  term : Term
  known : text.toLower ∈ term.spellings

namespace Comparison

def Relates : Comparison → Nat → Nat → Prop
  | equal => (· = ·)
  | different => (· ≠ ·)
  | less => (· < ·)
  | atMost => (· ≤ ·)
  | greater => (· > ·)
  | atLeast => (· ≥ ·)

theorem holds_iff (comparison : Comparison) (left right : Nat) :
    comparison.holds left right = true ↔ comparison.Relates left right := by
  cases comparison <;> simp [holds, Relates]

instance (comparison : Comparison) (left right : Nat) :
    Decidable (comparison.Relates left right) :=
  decidable_of_iff _ (comparison.holds_iff left right)

theorem holds_eq_decide (comparison : Comparison) (left right : Nat) :
    comparison.holds left right = decide (comparison.Relates left right) := by
  rw [Bool.eq_iff_iff, holds_iff, decide_eq_true_iff]

end Comparison

namespace Grammar

mutual

inductive AnyOf
  | only (part : AllOf)
  | either (part : AllOf) (rest : AnyOf)

inductive AllOf
  | only (part : Part)
  | both (part : Part) (rest : AllOf)

inductive Part
  | negated (part : Part)
  | enclosed (inner : AnyOf)
  | nonzero (name : TermName)
  | compared (name : TermName) (comparison : Comparison) (number : UInt64)

end

mutual

def AnyOf.tokens : AnyOf → List Token
  | .only part => part.tokens
  | .either part rest => part.tokens ++ .either :: rest.tokens

def AllOf.tokens : AllOf → List Token
  | .only part => part.tokens
  | .both part rest => part.tokens ++ .both :: rest.tokens

def Part.tokens : Part → List Token
  | .negated part => .negation :: part.tokens
  | .enclosed inner => .opening :: (inner.tokens ++ [.closing])
  | .nonzero name => [.name name.text]
  | .compared name comparison number =>
      [.name name.text, .comparison comparison, .number number]

end

mutual

/-- How many signs "!" and "(" are open at once. -/
def AnyOf.nesting : AnyOf → Nat
  | .only part => part.nesting
  | .either part rest => max part.nesting rest.nesting

def AllOf.nesting : AllOf → Nat
  | .only part => part.nesting
  | .both part rest => max part.nesting rest.nesting

def Part.nesting : Part → Nat
  | .negated part => part.nesting + 1
  | .enclosed inner => inner.nesting + 1
  | .nonzero _ | .compared _ _ _ => 0

end

mutual

/-- Tried from left to right, no further than to a part that holds. -/
def AnyOf.meaning (situation : Situation) : AnyOf → Except ConditionError Bool
  | .only part => part.meaning situation
  | .either part rest => do
      if ← part.meaning situation then return true
      rest.meaning situation

def AllOf.meaning (situation : Situation) : AllOf → Except ConditionError Bool
  | .only part => part.meaning situation
  | .both part rest => do
      if ← part.meaning situation then rest.meaning situation
      else return false

def Part.meaning (situation : Situation) : Part → Except ConditionError Bool
  | .negated part => do return !(← part.meaning situation)
  | .enclosed inner => inner.meaning situation
  | .nonzero name => do
      let found ← situation.valueOf name.term
      return decide (found ≠ 0)
  | .compared name comparison number => do
      let found ← situation.valueOf name.term
      return decide (comparison.Relates found number.toNat)

end

/-! The condition that is kept for a derivation: joined parts, as long as there are several. -/

mutual

def AnyOf.conditions : AnyOf → List Condition
  | .only part => [.gather .all part.conditions]
  | .either part rest => .gather .all part.conditions :: rest.conditions

def AllOf.conditions : AllOf → List Condition
  | .only part => [part.condition]
  | .both part rest => part.condition :: rest.conditions

def Part.condition : Part → Condition
  | .negated part => .not part.condition
  | .enclosed inner => .gather .any inner.conditions
  | .nonzero name => .compare name.term .different 0
  | .compared name comparison number => .compare name.term comparison number

end

def AnyOf.condition (derivation : AnyOf) : Condition :=
  .gather .any derivation.conditions

def AllOf.condition (derivation : AllOf) : Condition :=
  .gather .all derivation.conditions

end Grammar

namespace Condition

variable (situation : Situation)

theorem evaluateAll_singleton (part : Condition) :
    evaluateAll situation [part] = evaluate situation part := by
  rcases decided : evaluate situation part with error | _ | _ <;> simp [evaluateAll, decided]

theorem evaluateAny_singleton (part : Condition) :
    evaluateAny situation [part] = evaluate situation part := by
  rcases decided : evaluate situation part with error | _ | _ <;> simp [evaluateAny, decided]

theorem evaluate_gather_all (parts : List Condition) :
    evaluate situation (gather all parts) = evaluateAll situation parts := by
  rcases parts with _ | ⟨part, _ | ⟨next, rest⟩⟩
  · rfl
  · exact (evaluateAll_singleton situation part).symm
  · rfl

theorem evaluate_gather_any (parts : List Condition) :
    evaluate situation (gather any parts) = evaluateAny situation parts := by
  rcases parts with _ | ⟨part, _ | ⟨next, rest⟩⟩
  · rfl
  · exact (evaluateAny_singleton situation part).symm
  · rfl

end Condition

namespace Grammar

variable (situation : Situation)

mutual

theorem AnyOf.evaluate_conditions (derivation : AnyOf) :
    Condition.evaluateAny situation derivation.conditions = derivation.meaning situation := by
  cases derivation with
  | only part =>
      rw [AnyOf.conditions, Condition.evaluateAny_singleton, Condition.evaluate_gather_all,
        part.evaluate_conditions, AnyOf.meaning]
  | either part rest =>
      rw [AnyOf.conditions, Condition.evaluateAny, Condition.evaluate_gather_all,
        part.evaluate_conditions, rest.evaluate_conditions, AnyOf.meaning]
      rcases part.meaning situation with error | _ | _ <;> rfl

theorem AllOf.evaluate_conditions (derivation : AllOf) :
    Condition.evaluateAll situation derivation.conditions = derivation.meaning situation := by
  cases derivation with
  | only part =>
      rw [AllOf.conditions, Condition.evaluateAll_singleton, part.evaluate_condition, AllOf.meaning]
  | both part rest =>
      rw [AllOf.conditions, Condition.evaluateAll, part.evaluate_condition,
        rest.evaluate_conditions, AllOf.meaning]
      rcases part.meaning situation with error | _ | _ <;> rfl

theorem Part.evaluate_condition (derivation : Part) :
    derivation.condition.evaluate situation = derivation.meaning situation := by
  cases derivation with
  | negated part =>
      rw [Part.condition, Condition.evaluate, part.evaluate_condition, Part.meaning]
      rcases part.meaning situation with error | _ <;> rfl
  | enclosed inner =>
      rw [Part.condition, Condition.evaluate_gather_any, inner.evaluate_conditions, Part.meaning]
  | nonzero name =>
      rw [Part.condition, Condition.evaluate, Part.meaning]
      rcases situation.valueOf name.term with error | found
      · rfl
      · simp only [Comparison.holds_eq_decide]
        exact congrArg Except.ok (decide_eq_decide.mpr Iff.rfl)
  | compared name comparison number =>
      rw [Part.condition, Condition.evaluate, Part.meaning]
      rcases situation.valueOf name.term with error | found
      · rfl
      · simp only [Comparison.holds_eq_decide]
        rfl

end

/-- A condition that was kept for a derivation means what the derivation means. -/
theorem AnyOf.evaluate_condition (derivation : AnyOf) :
    derivation.condition.evaluate situation = derivation.meaning situation := by
  rw [condition, Condition.evaluate_gather_any, evaluate_conditions]

end Grammar

end Nmos6502
