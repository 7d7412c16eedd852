import Nmos6502.Proofs.ConditionGrammar

/-!
Conditions as trees: which of them have a text that is read, how deep that text is nested, and
what a reading of it keeps. Lists of one part are not kept.
-/

namespace Nmos6502.Condition

@[elab_as_elim, induction_eliminator]
theorem inductionOnParts {motive : Condition → Prop}
    (compare : ∀ term comparison value, motive (compare term comparison value))
    (all : ∀ parts, (∀ part ∈ parts, motive part) → motive (all parts))
    (any : ∀ parts, (∀ part ∈ parts, motive part) → motive (any parts))
    (not : ∀ part, motive part → motive (not part))
    (custom : ∀ name predicate, motive (custom name predicate))
    (condition : Condition) : motive condition :=
  match condition with
  | .compare term comparison value => compare term comparison value
  | .all parts => all parts fun part _ => inductionOnParts compare all any not custom part
  | .any parts => any parts fun part _ => inductionOnParts compare all any not custom part
  | .not part => not part (inductionOnParts compare all any not custom part)
  | .custom name predicate => custom name predicate

/-- Neither a predicate from outside nor an empty list. -/
inductive Plain : Condition → Prop
  | compare {term comparison value} : Plain (.compare term comparison value)
  | all {parts} : parts ≠ [] → (∀ part ∈ parts, Plain part) → Plain (.all parts)
  | any {parts} : parts ≠ [] → (∀ part ∈ parts, Plain part) → Plain (.any parts)
  | not {part} : Plain part → Plain (.not part)

mutual

/-- A part that is negated is set in parentheses, and so is a list. -/
def depth : Condition → Nat
  | .compare _ _ _ => 0
  | .all parts => 1 + deepest parts
  | .any parts => 1 + deepest parts
  | .not part => 2 + depth part
  | .custom _ _ => 0

def deepest : List Condition → Nat
  | [] => 0
  | part :: rest => max (depth part) (deepest rest)

end

mutual

def collapse : Condition → Condition
  | .compare term comparison value => .compare term comparison value
  | .all parts => gather .all (collapseEach parts)
  | .any parts => gather .any (collapseEach parts)
  | .not part => .not (collapse part)
  | .custom name predicate => .custom name predicate

def collapseEach : List Condition → List Condition
  | [] => []
  | part :: rest => collapse part :: collapseEach rest

end

theorem deepest_le_iff {parts : List Condition} {levels : Nat} :
    deepest parts ≤ levels ↔ ∀ part ∈ parts, part.depth ≤ levels := by
  induction parts with
  | nil => simp [deepest]
  | cons part rest ih =>
      rw [deepest, Nat.max_le, ih, List.forall_mem_cons]

theorem collapseEach_eq_map (parts : List Condition) :
    collapseEach parts = parts.map collapse := by
  induction parts with
  | nil => rfl
  | cons part rest ih => rw [collapseEach, ih, List.map_cons]

section

variable (situation : Situation)

theorem evaluateAll_congr {change : Condition → Condition} {parts : List Condition}
    (same : ∀ part ∈ parts, evaluate situation (change part) = evaluate situation part) :
    evaluateAll situation (parts.map change) = evaluateAll situation parts := by
  induction parts with
  | nil => rfl
  | cons part rest ih =>
      have later := ih fun other member => same other (List.mem_cons_of_mem _ member)
      rw [List.map_cons, evaluateAll, evaluateAll, same part (List.mem_cons_self ..), later]

theorem evaluateAny_congr {change : Condition → Condition} {parts : List Condition}
    (same : ∀ part ∈ parts, evaluate situation (change part) = evaluate situation part) :
    evaluateAny situation (parts.map change) = evaluateAny situation parts := by
  induction parts with
  | nil => rfl
  | cons part rest ih =>
      have later := ih fun other member => same other (List.mem_cons_of_mem _ member)
      rw [List.map_cons, evaluateAny, evaluateAny, same part (List.mem_cons_self ..), later]

theorem evaluate_collapse (condition : Condition) :
    condition.collapse.evaluate situation = condition.evaluate situation := by
  induction condition with
  | compare | custom => rfl
  | all parts ih =>
      rw [collapse, evaluate_gather_all, collapseEach_eq_map, evaluateAll_congr situation ih,
        evaluate]
  | any parts ih =>
      rw [collapse, evaluate_gather_any, collapseEach_eq_map, evaluateAny_congr situation ih,
        evaluate]
  | not part ih => rw [collapse, evaluate, evaluate, ih]

end

structure Settled (condition : Condition) : Prop where
  plain : condition.Plain
  collapsed : condition.collapse = condition

theorem collapseEach_of_settled {parts : List Condition} (settled : ∀ part ∈ parts, part.Settled) :
    collapseEach parts = parts := by
  have kept : parts.map collapse = parts.map id :=
    List.map_congr_left fun part member => (settled part member).collapsed
  rw [collapseEach_eq_map, kept, List.map_id]

theorem settled_gather {combine : List Condition → Condition} {parts : List Condition}
    (plain : ∀ {parts}, parts ≠ [] → (∀ part ∈ parts, Plain part) → Plain (combine parts))
    (collapses : ∀ parts, collapse (combine parts) = gather combine (collapseEach parts))
    (some : parts ≠ []) (settled : ∀ part ∈ parts, part.Settled) :
    (gather combine parts).Settled := by
  rcases parts with _ | ⟨part, _ | ⟨next, rest⟩⟩
  · exact absurd rfl some
  · exact settled part (List.mem_cons_self ..)
  · have kept := collapses (part :: next :: rest)
    rw [collapseEach_of_settled settled] at kept
    exact ⟨plain some fun part member => (settled part member).plain, kept⟩

end Nmos6502.Condition

namespace Nmos6502.Grammar

open Condition (Settled)

theorem AnyOf.conditions_ne_nil (derivation : AnyOf) : derivation.conditions ≠ [] := by
  cases derivation <;> simp [AnyOf.conditions]

theorem AllOf.conditions_ne_nil (derivation : AllOf) : derivation.conditions ≠ [] := by
  cases derivation <;> simp [AllOf.conditions]

mutual

theorem AnyOf.settled (derivation : AnyOf) : ∀ part ∈ derivation.conditions, part.Settled := by
  cases derivation with
  | only part =>
      rw [AnyOf.conditions, List.forall_mem_singleton]
      exact Condition.settled_gather .all (fun _ => rfl) part.conditions_ne_nil part.settled
  | either part rest =>
      rw [AnyOf.conditions, List.forall_mem_cons]
      have first := Condition.settled_gather .all (fun _ => rfl) part.conditions_ne_nil part.settled
      exact ⟨first, rest.settled⟩

theorem AllOf.settled (derivation : AllOf) : ∀ part ∈ derivation.conditions, part.Settled := by
  cases derivation with
  | only part =>
      rw [AllOf.conditions, List.forall_mem_singleton]
      exact part.settled
  | both part rest =>
      rw [AllOf.conditions, List.forall_mem_cons]
      exact ⟨part.settled, rest.settled⟩

theorem Part.settled (derivation : Part) : derivation.condition.Settled := by
  cases derivation with
  | negated part =>
      have inner := part.settled
      exact ⟨.not inner.plain, by rw [Part.condition, Condition.collapse, inner.collapsed]⟩
  | enclosed inner =>
      exact Condition.settled_gather .any (fun _ => rfl) inner.conditions_ne_nil inner.settled
  | nonzero | compared => exact ⟨.compare, rfl⟩

end

theorem AnyOf.settled_condition (derivation : AnyOf) : derivation.condition.Settled :=
  Condition.settled_gather .any (fun _ => rfl) derivation.conditions_ne_nil derivation.settled

end Nmos6502.Grammar
