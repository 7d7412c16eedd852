import Nmos6502.Proofs.Observation

/-!
What a breakpoint or a watchpoint keeps of the evaluations of its condition, and what is told of
them. An evaluation that holds is a hit, one that fails is told if it is the first, and one that
does neither leaves no mark.
-/

namespace Nmos6502

namespace Evaluation

def holds (evaluation : Evaluation) : Bool :=
  match evaluation.result with
  | .ok held => held
  | .error _ => false

def failure? (evaluation : Evaluation) : Option ConditionError :=
  match evaluation.result with
  | .ok _ => none
  | .error error => some error

end Evaluation

inductive Notice
  /-- The hits so far, and when this one was found. -/
  | hit (count : Nat) (counters : Counters)
  | failure (error : ConditionError)

namespace Notice

def hitCount? : Notice → Option Nat
  | hit count _ => some count
  | failure _ => none

def hitCounters? : Notice → Option Counters
  | hit _ counters => some counters
  | failure _ => none

def failure? : Notice → Option ConditionError
  | hit .. => none
  | failure error => some error

end Notice

structure Account where
  hits : Nat := 0
  lastHit : Option Counters := none
  lastValue : Option UInt8 := none
  failed : Bool := false
  temporary : Bool := false
  deriving DecidableEq

namespace Account

def weigh (account : Account) (evaluation : Evaluation) : Account :=
  match evaluation.result with
  | .ok true =>
      { account with
        hits := account.hits + 1
        lastHit := some evaluation.counters
        lastValue := evaluation.seen.or account.lastValue }
  | .ok false => account
  | .error _ => { account with failed := true }

def weighAll (account : Account) (evaluations : List Evaluation) : Account :=
  evaluations.foldl weigh account

def notice? (account : Account) (evaluation : Evaluation) : Option Notice :=
  match evaluation.result with
  | .ok true => some (.hit (account.hits + 1) evaluation.counters)
  | .ok false => none
  | .error error => if account.failed then none else some (.failure error)

def notices (account : Account) : List Evaluation → List Notice
  | [] => []
  | evaluation :: rest =>
      (account.notice? evaluation).toList ++ (account.weigh evaluation).notices rest

section

variable (account : Account) (evaluation : Evaluation)

theorem weigh_hits :
    (account.weigh evaluation).hits = account.hits + evaluation.holds.toNat := by
  rcases evaluation with ⟨counters, seen, error | _ | _⟩ <;> rfl

theorem weigh_lastHit :
    (account.weigh evaluation).lastHit =
      if evaluation.holds then some evaluation.counters else account.lastHit := by
  rcases evaluation with ⟨counters, seen, error | _ | _⟩ <;> rfl

theorem weigh_lastValue :
    (account.weigh evaluation).lastValue =
      if evaluation.holds then evaluation.seen.or account.lastValue else account.lastValue := by
  rcases evaluation with ⟨counters, seen, error | _ | _⟩ <;> rfl

theorem weigh_failed :
    (account.weigh evaluation).failed = (account.failed || evaluation.failure?.isSome) := by
  rcases evaluation with ⟨counters, seen, error | _ | _⟩ <;>
    simp [weigh, Evaluation.failure?]

theorem weigh_temporary : (account.weigh evaluation).temporary = account.temporary := by
  rcases evaluation with ⟨counters, seen, error | _ | _⟩ <;> rfl

theorem notice?_hitCount :
    (account.notice? evaluation).bind Notice.hitCount? =
      if evaluation.holds then some (account.hits + 1) else none := by
  rcases evaluation with ⟨counters, seen, error | _ | _⟩
  · simp only [notice?]
    split <;> rfl
  · rfl
  · rfl

theorem notice?_hitCounters :
    (account.notice? evaluation).bind Notice.hitCounters? =
      if evaluation.holds then some evaluation.counters else none := by
  rcases evaluation with ⟨counters, seen, error | _ | _⟩
  · simp only [notice?]
    split <;> rfl
  · rfl
  · rfl

theorem notice?_failure :
    (account.notice? evaluation).bind Notice.failure? =
      if account.failed then none else evaluation.failure? := by
  rcases evaluation with ⟨counters, seen, error | _ | _⟩
  · simp only [notice?]
    split <;> rfl
  · simp [notice?, Evaluation.failure?]
  · simp [notice?, Evaluation.failure?, Notice.failure?]

end

theorem weighAll_temporary (account : Account) (evaluations : List Evaluation) :
    (account.weighAll evaluations).temporary = account.temporary := by
  induction evaluations generalizing account with
  | nil => rfl
  | cons evaluation rest ih => exact (ih _).trans (account.weigh_temporary evaluation)

theorem weighAll_hits (account : Account) (evaluations : List Evaluation) :
    (account.weighAll evaluations).hits =
      account.hits + evaluations.countP Evaluation.holds := by
  induction evaluations generalizing account with
  | nil => rfl
  | cons evaluation rest ih =>
      rw [weighAll, List.foldl_cons, ← weighAll, ih, weigh_hits, List.countP_cons]
      cases evaluation.holds
      · rfl
      · rw [Bool.toNat_true, if_pos rfl, Nat.add_assoc, Nat.add_comm 1]

/-- Where nothing holds, neither the hits nor anything that comes with them change, and no hit
is told. -/
theorem weighAll_missed {evaluations : List Evaluation} (account : Account)
    (missed : ∀ evaluation ∈ evaluations, evaluation.holds = false) :
    (account.weighAll evaluations).hits = account.hits ∧
      (account.weighAll evaluations).lastHit = account.lastHit ∧
      (account.weighAll evaluations).lastValue = account.lastValue ∧
      (account.notices evaluations).filterMap Notice.hitCount? = [] := by
  induction evaluations generalizing account with
  | nil => exact ⟨rfl, rfl, rfl, rfl⟩
  | cons evaluation rest ih =>
      rw [List.forall_mem_cons] at missed
      have hits := account.weigh_hits evaluation
      have lastHit := account.weigh_lastHit evaluation
      have lastValue := account.weigh_lastValue evaluation
      have told := account.notice?_hitCount evaluation
      rw [missed.1] at hits lastHit lastValue told
      obtain ⟨sameHits, sameLast, sameValue, untold⟩ := ih (account.weigh evaluation) missed.2
      refine ⟨sameHits.trans hits, sameLast.trans lastHit, sameValue.trans lastValue, ?_⟩
      rw [notices, List.filterMap_append, filterMap_toList, told, untold]
      rfl

def spent (account : Account) : Bool :=
  account.temporary && decide (0 < account.hits)

theorem hits_of_not_spent {account : Account} (unspent : account.spent = false)
    (temporary : account.temporary = true) : account.hits = 0 := by
  simpa [spent, temporary] using unspent

theorem spent_weighAll {account : Account} (unspent : account.spent = false)
    (evaluations : List Evaluation) :
    (account.weighAll evaluations).spent =
      (account.temporary && evaluations.any Evaluation.holds) := by
  rw [spent, weighAll_temporary, weighAll_hits]
  rcases temporary : account.temporary with _ | _
  · rfl
  · rw [hits_of_not_spent unspent temporary, Nat.zero_add, Bool.true_and, Bool.true_and,
      Bool.eq_iff_iff, decide_eq_true_iff, List.countP_pos_iff, List.any_eq_true]

end Account

/-- An account that agrees with the evaluations that were made of a record since it was
registered, and with what was told of them. -/
structure Accounted (fresh : Account) (evaluations : List Evaluation) (notices : List Notice)
    (account : Account) : Prop where
  hitCounts : notices.filterMap Notice.hitCount? = List.range' 1 account.hits
  lastHit : account.lastHit = (notices.filterMap Notice.hitCounters?).getLast?
  hits : account.hits = evaluations.countP Evaluation.holds
  lastValue : account.lastValue =
    (evaluations.filter Evaluation.holds).foldl
      (fun value evaluation => evaluation.seen.or value) fresh.lastValue
  failures : notices.filterMap Notice.failure? =
    (evaluations.findSome? Evaluation.failure?).toList
  failed : account.failed = (evaluations.findSome? Evaluation.failure?).isSome
  temporary : account.temporary = fresh.temporary

namespace Accounted

variable {fresh account : Account} {evaluations : List Evaluation} {notices : List Notice}

theorem nil (unused : fresh = { lastValue := fresh.lastValue, temporary := fresh.temporary }) :
    Accounted fresh [] [] fresh := by
  rw [unused]
  exact ⟨rfl, rfl, rfl, rfl, rfl, rfl, rfl⟩

theorem weigh (accounted : Accounted fresh evaluations notices account)
    (evaluation : Evaluation) :
    Accounted fresh (evaluations ++ [evaluation])
      (notices ++ (account.notice? evaluation).toList) (account.weigh evaluation) := by
  constructor
  case hitCounts =>
    rw [List.filterMap_append, filterMap_toList, account.notice?_hitCount, accounted.hitCounts,
      account.weigh_hits]
    cases evaluation.holds
    · exact List.append_nil _
    · rw [Bool.toNat_true, List.range'_concat, Nat.one_mul, Nat.add_comm 1]
      rfl
  case lastHit =>
    rw [List.filterMap_append, filterMap_toList, account.notice?_hitCounters,
      account.weigh_lastHit]
    cases evaluation.holds
    · simpa using accounted.lastHit
    · simp
  case hits =>
    rw [account.weigh_hits, List.countP_append, accounted.hits, List.countP_singleton]
    cases evaluation.holds <;> rfl
  case lastValue =>
    rw [account.weigh_lastValue, List.filter_append, List.foldl_append, accounted.lastValue]
    cases held : evaluation.holds <;> simp [held]
  case failures =>
    rw [List.filterMap_append, filterMap_toList, account.notice?_failure, accounted.failures,
      accounted.failed, List.findSome?_append]
    cases evaluations.findSome? Evaluation.failure? <;> simp
  case failed =>
    rw [account.weigh_failed, accounted.failed, List.findSome?_append]
    cases evaluations.findSome? Evaluation.failure? <;> simp
  case temporary => rw [account.weigh_temporary, accounted.temporary]

theorem weighAll (accounted : Accounted fresh evaluations notices account)
    (later : List Evaluation) :
    Accounted fresh (evaluations ++ later) (notices ++ account.notices later)
      (account.weighAll later) := by
  induction later generalizing evaluations notices account with
  | nil => simpa [Account.notices, Account.weighAll] using accounted
  | cons evaluation rest ih =>
      have weighed := ih (accounted.weigh evaluation)
      rw [List.append_assoc, List.append_assoc] at weighed
      exact weighed

end Accounted

end Nmos6502
