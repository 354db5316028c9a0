import OperationPipeline.Walk.Collaborator

set_option autoImplicit false

/-! # What backends promise

A backend is judged by how often it runs its block, by what the block answers and by what the
backend makes of it. A contract is a relation between the answers of the block, in turn, and the
answer at the end; an interaction meets a contract if the relation holds whatever the block answers
and whatever becomes of the world in between. -/

namespace OperationPipeline

/-! ## Contracts of interactions -/

namespace Interaction

variable {ω α β σ : Type}

/-- The world as it is when the block is run for the first time, or at the end if it never is. -/
def start : Interaction ω α β → ω
  | .finish _ world => world
  | .run world _ => world

/-- The answers that the block gives, in turn, while an interaction is played against it. -/
def answers (block : σ → ω → α × σ × ω) : Interaction ω α β → σ → List α
  | .finish _ _, _ => []
  | .run world resume, state =>
    match block state world with
    | (answer, state, world) => answer :: (resume answer world).answers block state
termination_by structural interaction => interaction

/-- Whether the answers of the block and the answer at the end are always as the contract says. -/
def Meets : Interaction ω α β → (List α → β → Prop) → Prop
  | .finish answer _, contract => contract [] answer
  | .run _ resume, contract =>
    ∀ answer world, (resume answer world).Meets fun later last => contract (answer :: later) last
termination_by structural interaction => interaction

theorem Meets.imp {interaction : Interaction ω α β} {contract weaker : List α → β → Prop}
    (h : interaction.Meets contract) (himp : ∀ answers last, contract answers last →
      weaker answers last) : interaction.Meets weaker := by
  induction interaction generalizing contract weaker with
  | finish answer world => exact himp _ _ h
  | run world resume ih =>
    intro answer world
    exact ih answer world (h answer world) fun later last => himp (answer :: later) last

/-- What is promised holds of every play against a block. -/
theorem Meets.drive {interaction : Interaction ω α β} {contract : List α → β → Prop}
    (h : interaction.Meets contract) (block : σ → ω → α × σ × ω) (state : σ) :
    contract (interaction.answers block state) (interaction.drive block state).1 := by
  induction interaction generalizing contract state with
  | finish answer world => exact h
  | run world resume ih =>
    rw [answers, drive_run]
    exact ih _ _ (h _ _) _

theorem drive_of_answers_eq_nil {interaction : Interaction ω α β} {block : σ → ω → α × σ × ω}
    {state : σ} (h : interaction.answers block state = []) :
    (interaction.drive block state).2.1 = state := by
  cases interaction with
  | finish answer world => rfl
  | run world resume => simp [answers] at h

/-- A block that is run once leaves its state as it is at the end. -/
theorem drive_of_answers_eq_singleton {interaction : Interaction ω α β}
    {block : σ → ω → α × σ × ω} {state : σ} {answer : α}
    (h : interaction.answers block state = [answer]) :
    (block state interaction.start).1 = answer
      ∧ (interaction.drive block state).2.1 = (block state interaction.start).2.1 := by
  cases interaction with
  | finish answer world => simp [answers] at h
  | run world resume =>
    rw [answers, List.cons.injEq] at h
    obtain ⟨hanswer, hlater⟩ := h
    refine ⟨hanswer, ?_⟩
    rw [drive_run]
    exact drive_of_answers_eq_nil hlater

end Interaction

/-! ## Transactions -/

/-- What a transaction backend may promise about the answers of its block and its own. -/
abbrev TransactionContract := List (Except Abort Unit) → Except Abort Unit → Prop

/-- Whether a transaction backend always meets a contract. -/
def TransactionBackend.Meets {ω : Type} (backend : TransactionBackend ω)
    (contract : TransactionContract) : Prop :=
  ∀ method options world, (backend method options world).Meets contract

namespace TransactionContract

/-- The block is run at most once. -/
def atMostOnce : TransactionContract := fun answers _ => answers.length ≤ 1

/-- The block is run exactly once, and its error never becomes a success. -/
def keepsErrors : TransactionContract := fun answers last =>
  ∃ answer, answers = [answer] ∧ ∀ abort, answer = .error abort → ∃ raised, last = .error raised

/-- The signal to roll back is an answer to nothing but the signal. It is private to the engine, so
    a backend cannot make one, but it can keep one that a block gave it and answer another error
    with that. -/
def replaysNoSignal : TransactionContract := fun answers last =>
  ∀ raised, last = .error raised → raised.fault? = none →
    ∀ abort, .error abort ∈ answers → abort.fault? = none

/-- A success is handed on as it is, an error with contexts around it. -/
inductive HandedOn : Except Abort Unit → Except Abort Unit → Prop where
  | success : HandedOn (.ok ()) (.ok ())
  | error (abort : Abort) (contexts : List String) :
    HandedOn (.error abort) (.error ⟨abort.cause, contexts ++ abort.contexts⟩)

/-- The block is run exactly once, and its answer is handed on. -/
def handsOn : TransactionContract := fun answers last =>
  ∃ answer, answers = [answer] ∧ HandedOn answer last

/-- After an error of the block, the block is not run again and the error is handed on. -/
def passesErrorsOn : TransactionContract := fun answers last =>
  ∀ earlier abort later, answers = earlier ++ .error abort :: later →
    later = [] ∧ HandedOn (.error abort) last

theorem handsOn.passesErrorsOn {answers : List (Except Abort Unit)} {last : Except Abort Unit}
    (h : handsOn answers last) : passesErrorsOn answers last := by
  obtain ⟨answer, rfl, hlast⟩ := h
  intro earlier abort later hanswers
  cases earlier with
  | nil =>
    obtain ⟨rfl, rfl⟩ := List.cons.inj hanswers
    exact ⟨rfl, hlast⟩
  | cons first rest => simp at hanswers

theorem handsOn.keepsErrors {answers : List (Except Abort Unit)} {last : Except Abort Unit}
    (h : handsOn answers last) : keepsErrors answers last := by
  obtain ⟨answer, rfl, hlast⟩ := h
  refine ⟨answer, rfl, fun abort habort => ?_⟩
  subst habort
  cases hlast with
  | error abort contexts => exact ⟨_, rfl⟩

theorem fault?_mk_append_eq_none_iff (abort : Abort) (contexts : List String) :
    Abort.fault? ⟨abort.cause, contexts ++ abort.contexts⟩ = none ↔ abort.fault? = none := by
  cases hcause : abort.cause with
  | rolledBack => simp [Abort.fault?, hcause]
  | fault cause => simp [Abort.fault?, hcause]

theorem handsOn.replaysNoSignal {answers : List (Except Abort Unit)} {last : Except Abort Unit}
    (h : handsOn answers last) : replaysNoSignal answers last := by
  obtain ⟨answer, rfl, hlast⟩ := h
  intro raised hraised hsignal abort habort
  obtain rfl := List.mem_singleton.1 habort
  cases hlast with
  | error abort contexts =>
    obtain rfl := Except.error.inj hraised
    exact (fault?_mk_append_eq_none_iff abort contexts).1 hsignal

theorem keepsErrors.atMostOnce {answers : List (Except Abort Unit)} {last : Except Abort Unit}
    (h : keepsErrors answers last) : atMostOnce answers last := by
  obtain ⟨answer, rfl, -⟩ := h
  exact Nat.le_refl 1

end TransactionContract

/-- The backend that runs its block once and hands its answer on as it is. -/
def TransactionBackend.direct {ω : Type} : TransactionBackend ω :=
  fun _ _ world => .once world fun answer world => (answer, world)

theorem TransactionBackend.meets_direct {ω : Type} :
    (direct : TransactionBackend ω).Meets TransactionContract.handsOn := by
  intro method options world answer world'
  refine ⟨answer, rfl, ?_⟩
  cases answer with
  | ok u => exact .success
  | error abort => exact .error abort []

/-! ## Instrumentation -/

/-- Whether an instrumentation backend always meets a contract. -/
def Instrumentation.Meets {ω : Type} (backend : Instrumentation ω)
    (contract : List Unit → Unit → Prop) : Prop :=
  ∀ method traceName options world, (backend method traceName options world).Meets contract

/-- An instrumentation backend that always runs its block, as often as it likes. -/
def Instrumentation.Runs {ω : Type} (backend : Instrumentation ω) : Prop :=
  backend.Meets fun runs _ => runs ≠ []

end OperationPipeline
