import Nmos6502.Proofs.ConditionShape

/-!
The logic of conditions. Without predicates from outside a condition has its classical truth value
as soon as there is a last value, and without a last value it has either that answer already or
none. Negation turns "all" and "any" into each other, and lists may be cut into lists of lists
and put together again, all without a change to answers or errors.
-/

namespace Nmos6502.Condition

inductive Closed : Condition → Prop
  | compare {term comparison value} : Closed (.compare term comparison value)
  | all {parts} : (∀ part ∈ parts, Closed part) → Closed (.all parts)
  | any {parts} : (∀ part ∈ parts, Closed part) → Closed (.any parts)
  | not {part} : Closed part → Closed (.not part)

/-- Classical truth, where every term has a value. -/
def Holds (situation : Situation) : Condition → Prop
  | .compare term comparison value =>
      ∃ found, situation.valueOf term = .ok found ∧ comparison.Relates found value.toNat
  | .all parts => ∀ part, ∀ _ : part ∈ parts, Holds situation part
  | .any parts => ∃ part, ∃ _ : part ∈ parts, Holds situation part
  | .not part => ¬ Holds situation part
  | .custom _ _ => False

section

variable (situation : Situation) (stop : Bool)

/-- Decides parts in turn up to one with a certain result. -/
def evaluateUntil : List Condition → Except ConditionError Bool
  | [] => .ok (!stop)
  | part :: rest => do
      if (← evaluate situation part) = stop then return stop
      evaluateUntil rest

theorem evaluateUntil_cons (part : Condition) (rest : List Condition) :
    evaluateUntil situation stop (part :: rest) =
      (evaluate situation part).bind fun result =>
        if result = stop then .ok stop else evaluateUntil situation stop rest := rfl

theorem evaluate_all (parts : List Condition) :
    evaluate situation (all parts) = evaluateUntil situation false parts := by
  rw [evaluate]
  induction parts with
  | nil => rfl
  | cons part rest ih =>
      rw [evaluateAll, evaluateUntil_cons, ← ih]
      rcases evaluate situation part with error | _ | _ <;> rfl

theorem evaluate_any (parts : List Condition) :
    evaluate situation (any parts) = evaluateUntil situation true parts := by
  rw [evaluate]
  induction parts with
  | nil => rfl
  | cons part rest ih =>
      rw [evaluateAny, evaluateUntil_cons, ← ih]
      rcases evaluate situation part with error | _ | _ <;> rfl

theorem evaluate_not (part : Condition) :
    evaluate situation (not part) = (evaluate situation part).map (!·) := by
  rw [evaluate]
  rcases evaluate situation part with error | result <;> rfl

theorem exists_error_of_evaluateUntil {parts : List Condition} {error : ConditionError}
    (fails : evaluateUntil situation stop parts = .error error) :
    ∃ part ∈ parts, evaluate situation part = .error error := by
  induction parts with
  | nil => simp [evaluateUntil] at fails
  | cons part rest ih =>
      rw [evaluateUntil_cons] at fails
      rcases first : evaluate situation part with problem | result
      · rw [first] at fails
        exact ⟨part, List.mem_cons_self .., first.trans fails⟩
      · simp only [first, Except.bind] at fails
        split at fails
        · simp at fails
        · obtain ⟨later, member, same⟩ := ih fails
          exact ⟨later, List.mem_cons_of_mem _ member, same⟩

theorem evaluateUntil_answers {parts : List Condition}
    (answers : ∀ part ∈ parts, ∃ result, evaluate situation part = .ok result) :
    ∃ result, evaluateUntil situation stop parts = .ok result ∧
      (result = stop ↔ ∃ part ∈ parts, evaluate situation part = .ok stop) := by
  induction parts with
  | nil => exact ⟨!stop, rfl, by simp⟩
  | cons part rest ih =>
      rw [List.forall_mem_cons] at answers
      obtain ⟨⟨first, decided⟩, answersLater⟩ := answers
      obtain ⟨later, decidedLater, found⟩ := ih answersLater
      rw [evaluateUntil_cons, decided, Except.bind, decidedLater]
      by_cases stops : first = stop
      · subst stops
        exact ⟨first, if_pos rfl, by simp [decided]⟩
      · refine ⟨later, if_neg stops, ?_⟩
        simp [found, decided, stops]

theorem evaluateUntil_not (parts : List Condition) :
    evaluateUntil situation (!stop) (parts.map not) =
      (evaluateUntil situation stop parts).map (!·) := by
  induction parts with
  | nil => rfl
  | cons part rest ih =>
      rw [List.map_cons, evaluateUntil_cons, evaluateUntil_cons, evaluate_not, ih]
      rcases evaluate situation part with error | result
      · rfl
      · cases result <;> cases stop <;> rfl

theorem evaluateUntil_append (front back : List Condition) :
    evaluateUntil situation stop (front ++ back) =
      (evaluateUntil situation stop front).bind fun result =>
        if result = stop then .ok stop else evaluateUntil situation stop back := by
  induction front with
  | nil => cases stop <;> rfl
  | cons part rest ih =>
      rw [List.cons_append, evaluateUntil_cons, evaluateUntil_cons, ih]
      rcases evaluate situation part with error | result
      · rfl
      · by_cases stops : result = stop <;> simp [Except.bind, stops]

theorem evaluateUntil_kept {other : Situation} {parts : List Condition} {result : Bool}
    (kept : ∀ part ∈ parts, ∀ answer, evaluate situation part = .ok answer →
      evaluate other part = .ok answer)
    (decided : evaluateUntil situation stop parts = .ok result) :
    evaluateUntil other stop parts = .ok result := by
  induction parts with
  | nil => exact decided
  | cons part rest ih =>
      rw [List.forall_mem_cons] at kept
      rw [evaluateUntil_cons] at decided ⊢
      rcases first : evaluate situation part with error | answer
      · simp [first, Except.bind] at decided
      · rw [kept.1 answer first]
        simp only [first, Except.bind] at decided ⊢
        split at decided
        · rwa [if_pos ‹_›]
        · rw [if_neg ‹_›]
          exact ih kept.2 decided

theorem evaluateUntil_within {part other : Condition}
    (same : evaluate situation part = evaluate situation other) (front back : List Condition) :
    evaluateUntil situation stop (front ++ part :: back) =
      evaluateUntil situation stop (front ++ other :: back) := by
  rw [evaluateUntil_append, evaluateUntil_append, evaluateUntil_cons, evaluateUntil_cons, same]

theorem evaluateUntil_grouped {group : Condition} {middle : List Condition}
    (grouped : evaluate situation group = evaluateUntil situation stop middle)
    (front back : List Condition) :
    evaluateUntil situation stop (front ++ group :: back) =
      evaluateUntil situation stop (front ++ (middle ++ back)) := by
  rw [evaluateUntil_append, evaluateUntil_append, evaluateUntil_append, evaluateUntil_cons, grouped]

end

/-- Lists of parts cut into lists of lists or put together, anywhere in a condition, with the order
of the parts kept. -/
inductive Regrouped : Condition → Condition → Prop
  | refl (condition) : Regrouped condition condition
  | symm {condition other} : Regrouped condition other → Regrouped other condition
  | trans {condition middle other} :
      Regrouped condition middle → Regrouped middle other → Regrouped condition other
  | groupAll (front middle back) :
      Regrouped (.all (front ++ (middle ++ back))) (.all (front ++ .all middle :: back))
  | groupAny (front middle back) :
      Regrouped (.any (front ++ (middle ++ back))) (.any (front ++ .any middle :: back))
  | withinAll (front) {part other} (back) : Regrouped part other →
      Regrouped (.all (front ++ part :: back)) (.all (front ++ other :: back))
  | withinAny (front) {part other} (back) : Regrouped part other →
      Regrouped (.any (front ++ part :: back)) (.any (front ++ other :: back))
  | withinNot {part other} : Regrouped part other → Regrouped (.not part) (.not other)

theorem Regrouped.evaluate_eq {condition other : Condition} (regrouped : Regrouped condition other)
    (situation : Situation) : condition.evaluate situation = other.evaluate situation := by
  induction regrouped with
  | refl => rfl
  | symm _ ih => exact ih.symm
  | trans _ _ first second => exact first.trans second
  | groupAll front middle back =>
      rw [evaluate_all, evaluate_all]
      exact (evaluateUntil_grouped situation false (evaluate_all ..) front back).symm
  | groupAny front middle back =>
      rw [evaluate_any, evaluate_any]
      exact (evaluateUntil_grouped situation true (evaluate_any ..) front back).symm
  | withinAll front back _ ih =>
      rw [evaluate_all, evaluate_all, evaluateUntil_within situation false ih]
  | withinAny front back _ ih =>
      rw [evaluate_any, evaluate_any, evaluateUntil_within situation true ih]
  | withinNot _ ih => rw [evaluate_not, evaluate_not, ih]

theorem evaluate_not_all (situation : Situation) (parts : List Condition) :
    evaluate situation (not (all parts)) = evaluate situation (any (parts.map not)) := by
  rw [evaluate_not, evaluate_all, evaluate_any, ← evaluateUntil_not]
  rfl

theorem evaluate_not_any (situation : Situation) (parts : List Condition) :
    evaluate situation (not (any parts)) = evaluate situation (all (parts.map not)) := by
  rw [evaluate_not, evaluate_any, evaluate_all, ← evaluateUntil_not]
  rfl

theorem valueOf_cases (situation : Situation) (term : Term) :
    (∃ found, situation.valueOf term = .ok found ∧
      ∀ last, situation.lastValue = none →
        { situation with lastValue := some last }.valueOf term = .ok found) ∨
    situation.valueOf term = .error (.unavailable .lastValue) ∧ situation.lastValue = none := by
  cases term with
  | lastValue =>
      rcases seen : situation.lastValue with _ | value
      · exact .inr ⟨by rw [Situation.valueOf, seen], rfl⟩
      · exact .inl ⟨value.toNat, by rw [Situation.valueOf, seen], by simp⟩
  | _ => exact .inl ⟨_, rfl, fun _ _ => rfl⟩

theorem Closed.error_eq {condition : Condition} (closed : condition.Closed) {situation : Situation}
    {error : ConditionError} (fails : condition.evaluate situation = .error error) :
    error = .unavailable .lastValue ∧ situation.lastValue = none := by
  induction closed with
  | @compare term comparison value =>
      rw [evaluate] at fails
      rcases valueOf_cases situation term with ⟨found, known, _⟩ | ⟨unknown, missing⟩
      · simp [known] at fails
      · simp only [unknown, Except.error.injEq] at fails
        exact ⟨fails.symm, missing⟩
  | all _ ih =>
      rw [evaluate_all] at fails
      obtain ⟨part, member, partFails⟩ := exists_error_of_evaluateUntil _ _ fails
      exact ih part member partFails
  | any _ ih =>
      rw [evaluate_any] at fails
      obtain ⟨part, member, partFails⟩ := exists_error_of_evaluateUntil _ _ fails
      exact ih part member partFails
  | @not part _ ih =>
      rw [evaluate_not] at fails
      rcases decided : part.evaluate situation with problem | answer
      · simp only [decided, Except.map, Except.error.injEq] at fails
        exact ih (fails ▸ decided)
      · simp [decided, Except.map] at fails

theorem Closed.answer_kept {condition : Condition} (closed : condition.Closed)
    {situation : Situation} (missing : situation.lastValue = none) (last : UInt8) {result : Bool}
    (decided : condition.evaluate situation = .ok result) :
    condition.evaluate { situation with lastValue := some last } = .ok result := by
  induction closed generalizing result with
  | @compare term comparison value =>
      rw [evaluate] at decided ⊢
      rcases valueOf_cases situation term with ⟨found, known, kept⟩ | ⟨unknown, _⟩
      · rw [kept last missing]
        rwa [known] at decided
      · simp [unknown] at decided
  | all _ ih =>
      rw [evaluate_all] at decided ⊢
      exact evaluateUntil_kept _ _ (fun part member _ => ih part member) decided
  | any _ ih =>
      rw [evaluate_any] at decided ⊢
      exact evaluateUntil_kept _ _ (fun part member _ => ih part member) decided
  | @not part _ ih =>
      rw [evaluate_not] at decided ⊢
      rcases inner : part.evaluate situation with problem | answer
      · simp [inner, Except.map] at decided
      · rw [ih inner]
        rwa [inner] at decided

def Decided (situation : Situation) (condition : Condition) : Prop :=
  ∃ result, condition.evaluate situation = .ok result ∧
    (result = true ↔ condition.Holds situation)

theorem Decided.evaluate_iff {situation : Situation} {condition : Condition}
    (decided : Decided situation condition) (result : Bool) :
    condition.evaluate situation = .ok result ↔ (result = true ↔ condition.Holds situation) := by
  obtain ⟨answer, evaluated, holds⟩ := decided
  rw [evaluated, Except.ok.injEq, ← holds, Bool.eq_iff_iff]
  exact iff_comm

theorem Closed.decided {condition : Condition} (closed : condition.Closed) {situation : Situation}
    (seen : situation.lastValue ≠ none) : Decided situation condition := by
  induction closed with
  | @compare term comparison value =>
      rcases valueOf_cases situation term with ⟨found, known, _⟩ | ⟨_, missing⟩
      · refine ⟨comparison.holds found value.toNat, by rw [evaluate, known], ?_⟩
        rw [comparison.holds_iff, Holds]
        simp [known]
      · exact absurd missing seen
  | @all parts _ ih =>
      obtain ⟨result, decided, stops⟩ := evaluateUntil_answers situation false fun part member =>
        (ih part member).imp fun _ answer => answer.1
      refine ⟨result, by rw [evaluate_all, decided], ?_⟩
      -- A list of all has the answer false exactly if some part has it.
      rw [Holds, ← Bool.not_eq_false, stops, not_exists]
      refine forall_congr' fun part => ?_
      rw [not_and]
      refine forall_congr' fun member => ?_
      rw [(ih part member).evaluate_iff]
      simp
  | @any parts _ ih =>
      obtain ⟨result, decided, stops⟩ := evaluateUntil_answers situation true fun part member =>
        (ih part member).imp fun _ answer => answer.1
      refine ⟨result, by rw [evaluate_any, decided], ?_⟩
      rw [Holds, stops]
      refine exists_congr fun part => ?_
      rw [exists_prop]
      refine and_congr_right fun member => ?_
      rw [(ih part member).evaluate_iff]
      simp
  | @not part _ ih =>
      obtain ⟨result, decided, holds⟩ := ih
      refine ⟨!result, by rw [evaluate_not, decided]; rfl, ?_⟩
      rw [Holds, ← holds, Bool.not_eq_true', Bool.not_eq_true]

structure Obeys (condition : Condition) : Prop where
  failure : ∀ situation : Situation, ∀ error, condition.evaluate situation = .error error →
    error = .unavailable .lastValue ∧ situation.lastValue = none
  kept : ∀ situation : Situation, situation.lastValue = none →
    ∀ result, condition.evaluate situation = .ok result →
      ∀ last, condition.evaluate { situation with lastValue := some last } = .ok result
  classical : ∀ situation : Situation, situation.lastValue ≠ none → Decided situation condition

/-- Conditions without predicates from outside fail only for want of a last value, and their answers
are classical truth. Negation exchanges "all" and "any", and parts may be regrouped, for all
conditions and with the same errors. -/
theorem evaluation_obeys_logic :
    (∀ condition : Condition, condition.Closed → condition.Obeys) ∧
    (∀ (situation : Situation) (parts : List Condition),
      (not (all parts)).evaluate situation = (any (parts.map not)).evaluate situation ∧
        (not (any parts)).evaluate situation = (all (parts.map not)).evaluate situation) ∧
    ∀ condition other : Condition, Regrouped condition other →
      ∀ situation, condition.evaluate situation = other.evaluate situation := by
  refine ⟨fun condition closed => ⟨?_, ?_, ?_⟩, ?_, ?_⟩
  · intro situation error fails
    exact closed.error_eq fails
  · intro situation missing result decided last
    exact closed.answer_kept missing last decided
  · intro situation seen
    exact closed.decided seen
  · intro situation parts
    exact ⟨evaluate_not_all situation parts, evaluate_not_any situation parts⟩
  · intro condition other regrouped situation
    exact regrouped.evaluate_eq situation

def sampleChoice : Condition :=
  .any [.compare .a .equal 1, .any [.compare .lastValue .equal 2, .all []]]

theorem sampleChoice_closed : sampleChoice.Closed := by
  refine .any ?_
  simp only [List.forall_mem_cons, List.not_mem_nil, false_implies, implies_true, and_true]
  refine ⟨.compare, .any ?_⟩
  simp only [List.forall_mem_cons, List.not_mem_nil, false_implies, implies_true, and_true]
  exact ⟨.compare, .all (by simp)⟩

theorem sampleChoice_obeys :
    sampleChoice.Obeys ∧
      sampleChoice.evaluate ⟨{ a := 1 }, 0, none⟩ = .ok true ∧
      sampleChoice.evaluate ⟨{ a := 1 }, 0, some 7⟩ = .ok true ∧
      sampleChoice.evaluate ⟨{}, 0, none⟩ = .error (.unavailable .lastValue) ∧
      Decided ⟨{}, 0, some 7⟩ sampleChoice ∧
      Regrouped (.any [.compare .a .equal 1, .compare .lastValue .equal 2, .all []]) sampleChoice ∧
      (Condition.any [.compare .a .equal 1, .compare .lastValue .equal 2, .all []]).evaluate
        ⟨{}, 0, none⟩ = .error (.unavailable .lastValue) := by
  have obeys := evaluation_obeys_logic.1 sampleChoice sampleChoice_closed
  have regrouped : Regrouped
      (.any [.compare .a .equal 1, .compare .lastValue .equal 2, .all []]) sampleChoice :=
    .groupAny [.compare .a .equal 1] [.compare .lastValue .equal 2, .all []] []
  have early : sampleChoice.evaluate ⟨{ a := 1 }, 0, none⟩ = .ok true := rfl
  have fails : sampleChoice.evaluate ⟨{}, 0, none⟩ = .error (.unavailable .lastValue) := rfl
  refine ⟨obeys, early, obeys.kept ⟨{ a := 1 }, 0, none⟩ rfl _ early 7, fails,
    obeys.classical ⟨{}, 0, some 7⟩ (by decide), regrouped, ?_⟩
  rw [evaluation_obeys_logic.2.2 _ _ regrouped, fails]

end Nmos6502.Condition
