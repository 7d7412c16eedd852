/-!
Systems that a host talks to: one operation at a time goes in, an answer comes out, and the
system moves on. Two systems that answer alike and stay related do so in every dialogue.
-/

namespace Nmos6502.Dialogue

variable {σ τ ω α : Type}

def run (reply : σ → ω → α × σ) (state : σ) : List ω → List α × σ
  | [] => ([], state)
  | operation :: rest =>
      let (answer, next) := reply state operation
      let (answers, final) := run reply next rest
      (answer :: answers, final)

theorem run_cons (reply : σ → ω → α × σ) (state : σ) (operation : ω) (rest : List ω) :
    run reply state (operation :: rest) =
      ((reply state operation).1 :: (run reply (reply state operation).2 rest).1,
        (run reply (reply state operation).2 rest).2) := rfl

theorem run_append (reply : σ → ω → α × σ) (state : σ) (first rest : List ω) :
    (run reply state (first ++ rest)).2 = (run reply (run reply state first).2 rest).2 := by
  induction first generalizing state with
  | nil => rfl
  | cons operation first ih => exact ih (reply state operation).2

/-- What the operations bring up one after the other, each in the state that it meets. -/
def gather {γ : Type} (reply : σ → ω → α × σ) (brings : σ → ω → List γ) (state : σ) :
    List ω → List γ
  | [] => []
  | operation :: rest =>
      brings state operation ++ gather reply brings (reply state operation).2 rest

theorem exists_of_mem_gather {γ : Type} {reply : σ → ω → α × σ} {brings : σ → ω → List γ}
    {state : σ} {operations : List ω} {brought : γ}
    (member : brought ∈ gather reply brings state operations) :
    ∃ operation ∈ operations, ∃ met, brought ∈ brings met operation := by
  induction operations generalizing state with
  | nil => nomatch member
  | cons operation rest ih =>
      rcases List.mem_append.mp member with here | later
      · exact ⟨operation, List.mem_cons_self, state, here⟩
      · obtain ⟨found, among, there⟩ := ih later
        exact ⟨found, List.mem_cons_of_mem _ among, there⟩

def Sometime (reply : σ → ω → α × σ) (state : σ) (operations : List ω) (Meets : σ → ω → Prop) :
    Prop :=
  ∃ earlier operation later, operations = earlier ++ operation :: later ∧
    Meets (run reply state earlier).2 operation

theorem Sometime.now {reply : σ → ω → α × σ} {state : σ} {operation : ω} {rest : List ω}
    {Meets : σ → ω → Prop} (here : Meets state operation) :
    Sometime reply state (operation :: rest) Meets :=
  ⟨[], operation, rest, rfl, here⟩

theorem Sometime.later {reply : σ → ω → α × σ} {state : σ} {operation : ω} {rest : List ω}
    {Meets : σ → ω → Prop} (there : Sometime reply (reply state operation).2 rest Meets) :
    Sometime reply state (operation :: rest) Meets := by
  obtain ⟨earlier, found, remaining, split, met⟩ := there
  exact ⟨operation :: earlier, found, remaining, congrArg (operation :: ·) split, met⟩

theorem sometime_cons {reply : σ → ω → α × σ} {state : σ} {operation : ω} {rest : List ω}
    {Meets : σ → ω → Prop} :
    Sometime reply state (operation :: rest) Meets ↔
      Meets state operation ∨ Sometime reply (reply state operation).2 rest Meets := by
  constructor
  · rintro ⟨earlier, found, remaining, split, met⟩
    cases earlier with
    | nil =>
        obtain ⟨rfl, rfl⟩ := List.cons.inj split
        exact .inl met
    | cons first earlier =>
        obtain ⟨rfl, rest_eq⟩ := List.cons.inj split
        exact .inr ⟨earlier, found, remaining, rest_eq, met⟩
  · rintro (here | there)
    · exact .now here
    · exact there.later

instance decidableSometime (reply : σ → ω → α × σ) (Meets : σ → ω → Prop)
    [∀ met operation, Decidable (Meets met operation)] (state : σ) :
    ∀ operations, Decidable (Sometime reply state operations Meets)
  | [] => isFalse fun ⟨_, _, _, split, _⟩ => by simp at split
  | operation :: rest =>
      have := decidableSometime reply Meets (reply state operation).2 rest
      decidable_of_iff _ sometime_cons.symm

theorem Sometime.imp {reply : σ → ω → α × σ} {state : σ} {operations : List ω}
    {Meets Sees : σ → ω → Prop}
    (implies : ∀ met operation, Meets met operation → Sees met operation)
    (sometime : Sometime reply state operations Meets) :
    Sometime reply state operations Sees := by
  obtain ⟨earlier, operation, later, split, met⟩ := sometime
  exact ⟨earlier, operation, later, split, implies _ operation met⟩

theorem run_answers {reply : σ → ω → α × σ} {Fine : α → Prop}
    (fine : ∀ state operation, Fine (reply state operation).1) (state : σ)
    (operations : List ω) : ∀ answer ∈ (run reply state operations).1, Fine answer := by
  induction operations generalizing state with
  | nil => nofun
  | cons operation rest ih =>
      rw [run_cons]
      exact List.forall_mem_cons.mpr ⟨fine state operation, ih _⟩

theorem run_related {reply : σ → ω → α × σ} {answer : τ → ω → α × τ} {Related : σ → τ → Prop}
    {operations : List ω}
    (alike : ∀ operation ∈ operations, ∀ left right, Related left right →
      (reply left operation).1 = (answer right operation).1 ∧
        Related (reply left operation).2 (answer right operation).2)
    {left : σ} {right : τ} (related : Related left right) :
    (run reply left operations).1 = (run answer right operations).1 ∧
      Related (run reply left operations).2 (run answer right operations).2 := by
  induction operations generalizing left right with
  | nil => exact ⟨rfl, related⟩
  | cons operation rest ih =>
      rw [List.forall_mem_cons] at alike
      obtain ⟨sameAnswer, stillRelated⟩ := alike.1 left right related
      obtain ⟨sameAnswers, finallyRelated⟩ := ih alike.2 stillRelated
      rw [run_cons, run_cons, sameAnswer, sameAnswers]
      exact ⟨rfl, finallyRelated⟩

end Nmos6502.Dialogue
