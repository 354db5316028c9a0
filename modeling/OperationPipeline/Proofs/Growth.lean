import OperationPipeline.Outcome.Edit
import OperationPipeline.Proofs.Acceptance

set_option autoImplicit false

/-! # Failures stay

No field of an outcome is left without messages, and as long as that holds no edit takes a failure
back: adding an error removes a field only if it was not there before. `Outcome.Grows` says both of
an outcome before and after a change; edits grow an outcome, and so does everything that the engine
does to it. -/

namespace OperationPipeline

/-! ## Entries -/

namespace Entries

variable {α : Type}

theorem mem_of_at?_eq_some {key : String} {value : α} {entries : Entries α}
    (h : entries.at? key = some value) : (key, value) ∈ entries := by
  induction entries with
  | nil => simp at h
  | cons entry rest ih =>
    obtain ⟨k, v⟩ := entry
    by_cases hk : k = key
    · simp only [at?, if_pos hk, Option.some.injEq] at h
      subst hk h
      exact List.mem_cons_self
    · simp only [at?, if_neg hk] at h
      exact List.mem_cons_of_mem _ (ih h)

theorem remove_of_at?_eq_none {key : String} {entries : Entries α}
    (h : entries.at? key = none) : entries.remove key = entries := by
  induction entries with
  | nil => rfl
  | cons entry rest ih =>
    obtain ⟨k, v⟩ := entry
    by_cases hk : k = key
    · simp [at?, hk] at h
    · simp only [at?, if_neg hk] at h
      rw [remove, if_neg hk, ih h]

theorem mem_put {key : String} {value : α} {entries : Entries α} {entry : String × α}
    (h : entry ∈ entries.put key value) : entry = (key, value) ∨ entry ∈ entries := by
  induction entries with
  | nil =>
    rw [put, List.mem_singleton] at h
    exact Or.inl h
  | cons first rest ih =>
    obtain ⟨k, v⟩ := first
    by_cases hk : k = key
    · rw [put, if_pos hk, List.mem_cons] at h
      rcases h with h | h
      · exact Or.inl (hk ▸ h)
      · exact Or.inr (List.mem_cons_of_mem _ h)
    · rw [put, if_neg hk, List.mem_cons] at h
      rcases h with h | h
      · exact Or.inr (h ▸ List.mem_cons_self)
      · exact (ih h).imp id (List.mem_cons_of_mem _)

theorem put_ne_nil (key : String) (value : α) (entries : Entries α) :
    entries.put key value ≠ [] := by
  cases entries with
  | nil => simp [put]
  | cons first rest =>
    obtain ⟨k, v⟩ := first
    by_cases hk : k = key <;> simp [put, hk]

end Entries

/-- A list with messages keeps some whatever is added. -/
theorem Messages.absorb_ne_nil {messages : List Json} (h : messages ≠ []) (message : Json) :
    absorb messages message ≠ [] := by
  rw [absorb, Ne, distinct_eq_nil_iff]
  intro hempty
  unfold extended at hempty
  split at hempty
  · exact List.cons_ne_nil _ _ hempty
  · exact h (List.append_eq_nil_iff.1 hempty).1
  · exact h (List.append_eq_nil_iff.1 hempty).1

namespace Outcome

/-! ## Growth -/

/-- Whether every field of the errors has a message. -/
def Filled (outcome : Outcome) : Prop :=
  ∀ entry ∈ outcome.errors, entry.2 ≠ []

theorem filled_empty : Filled {} := fun _ hentry => nomatch hentry

/-- Whether a change leaves no field without messages and takes no failure back. -/
def Grows (before after : Outcome) : Prop :=
  before.Filled → after.Filled ∧ (before.isFailure = true → after.isFailure = true)

theorem Grows.refl (outcome : Outcome) : outcome.Grows outcome :=
  fun hfilled => ⟨hfilled, id⟩

theorem Grows.trans {first second third : Outcome} (h : first.Grows second)
    (h' : second.Grows third) : first.Grows third := by
  intro hfilled
  obtain ⟨hfilled', hfailed⟩ := h hfilled
  obtain ⟨hfilled'', hfailed'⟩ := h' hfilled'
  exact ⟨hfilled'', hfailed' ∘ hfailed⟩

/-- A change of the other fields. -/
theorem Grows.of_eq {before after : Outcome} (herrors : after.errors = before.errors)
    (hexceptions : after.exceptions = before.exceptions) : before.Grows after := by
  intro hfilled
  refine ⟨?_, fun hfailed => ?_⟩
  · rw [Filled, herrors]
    exact hfilled
  · rw [isFailure, herrors, hexceptions]
    exact hfailed

theorem Grows.foldl {ε : Type} {step : Outcome → ε → Outcome}
    (hstep : ∀ (outcome : Outcome) (item : ε), outcome.Grows (step outcome item)) (items : List ε)
    (outcome : Outcome) : outcome.Grows (items.foldl step outcome) := by
  induction items generalizing outcome with
  | nil => exact Grows.refl outcome
  | cons item rest ih => exact (hstep outcome item).trans (ih (step outcome item))

/-! ## Edits -/

/-- An error that is added changes nothing, or its message is put into the list of its field. -/
theorem addError_cases {outcome : Outcome} (hfilled : outcome.Filled) (field : String)
    (message : Json) :
    outcome.addError field message = outcome
      ∨ message.isNull = false
        ∧ Messages.absorb ((outcome.errors.at? field).getD []) message ≠ []
        ∧ outcome.addError field message = { outcome with
          errors := outcome.errors.put field
            (Messages.absorb ((outcome.errors.at? field).getD []) message) } := by
  unfold addError
  split
  · exact Or.inl rfl
  rename_i hsome
  dsimp only
  split
  · -- nothing is left to say about the field, so nothing was said before
    rename_i hempty
    have habsent : outcome.errors.at? field = none := by
      cases hat : outcome.errors.at? field with
      | none => rfl
      | some messages =>
        rw [hat, Option.getD_some, List.isEmpty_iff] at hempty
        have hne : messages ≠ [] := hfilled _ (Entries.mem_of_at?_eq_some hat)
        exact absurd hempty (Messages.absorb_ne_nil hne message)
    rw [Entries.remove_of_at?_eq_none habsent]
    exact Or.inl rfl
  · rename_i hne
    exact Or.inr ⟨Bool.eq_false_iff.2 hsome, fun hempty => hne (List.isEmpty_iff.2 hempty), rfl⟩

theorem grows_addError (outcome : Outcome) (field : String) (message : Json) :
    outcome.Grows (outcome.addError field message) := by
  intro hfilled
  rcases addError_cases hfilled field message with hsame | ⟨-, hne, hput⟩
  · rw [hsame]
    exact ⟨hfilled, id⟩
  · rw [hput]
    refine ⟨fun entry hentry => ?_, fun _ => ?_⟩
    · rcases Entries.mem_put hentry with rfl | hold
      · exact hne
      · exact hfilled entry hold
    · simp [isFailure, Entries.put_ne_nil]

theorem grows_addErrors (outcome : Outcome) (messages : List (String × Json)) :
    outcome.Grows (outcome.addErrors messages) := by
  rw [addErrors]
  exact Grows.foldl (fun outcome item => grows_addError outcome item.1 item.2) messages outcome

theorem grows_addErrorLists (outcome : Outcome) (errors : Entries (List Json)) :
    outcome.Grows (outcome.addErrorLists errors) :=
  grows_addErrors outcome _

theorem grows_addExceptionTexts (outcome : Outcome) (key : String) (texts : List String) :
    outcome.Grows (outcome.addExceptionTexts key texts) :=
  fun hfilled => ⟨hfilled, fun _ => isFailure_addExceptionTexts outcome key texts⟩

theorem grows_addException (outcome : Outcome) (step text : String) (operation : Option String) :
    outcome.Grows (outcome.addException step text operation) :=
  grows_addExceptionTexts outcome _ _

theorem grows_addExceptions (outcome : Outcome) (exceptions : List (String × List String)) :
    outcome.Grows (outcome.addExceptions exceptions) := by
  rw [addExceptions]
  exact Grows.foldl (fun outcome item => grows_addExceptionTexts outcome item.1 item.2) exceptions
    outcome

theorem grows_mergeFailures (outcome other : Outcome) :
    outcome.Grows (outcome.mergeFailures other) :=
  (grows_addErrorLists outcome other.errors).trans (grows_addExceptions _ other.exceptions)

theorem grows_apply (outcome : Outcome) (edit : Edit) : outcome.Grows (outcome.apply edit) := by
  cases edit with
  | addError field message => exact grows_addError outcome field message
  | addErrors messages => exact grows_addErrors outcome messages
  | addException step text operation => exact grows_addException outcome step text operation
  | addExceptions exceptions => exact grows_addExceptions outcome exceptions
  | mergeFailures other => exact grows_mergeFailures outcome other
  | addInformation information => exact Grows.of_eq rfl rfl
  | addTrace entry => exact Grows.of_eq rfl rfl
  | setOutput output => exact Grows.of_eq rfl rfl
  | editOutput change => exact Grows.of_eq rfl rfl

theorem grows_applyAll (outcome : Outcome) (edits : List Edit) :
    outcome.Grows (outcome.applyAll edits) :=
  Grows.foldl grows_apply edits outcome

end Outcome

/-! ## The engine -/

/-- A handler that changes the outcome only by edits. -/
def Handler.Edits {ω : Type} (handler : Handler ω) : Prop :=
  ∀ state, ∃ edits, (handler state).2.call.outcome = state.call.outcome.applyAll edits

theorem Handler.Edits.grows {ω : Type} {handler : Handler ω} (h : handler.Edits)
    (state : State ω) : state.call.outcome.Grows (handler state).2.call.outcome := by
  obtain ⟨edits, hedits⟩ := h state
  rw [hedits]
  exact Outcome.grows_applyAll _ edits

/-- A handler that adds an error. -/
def Handler.complain {ω : Type} : Handler ω := fun state =>
  (.answered .nothing,
    { state with call := state.call.mapOutcome (·.addError "name" (.string "missing")) })

theorem Handler.edits_complain {ω : Type} : (complain : Handler ω).Edits :=
  fun _ => ⟨[.addError "name" (.string "missing")], rfl⟩

namespace Setting

variable {ω : Type} (setting : Setting ω)

theorem grows_nest (step : String) (entry : TraceEntry) (outcome : Outcome) :
    outcome.Grows (setting.nest step entry outcome) := by
  rw [nest]
  split
  · exact Outcome.Grows.of_eq rfl rfl
  · exact Outcome.Grows.refl outcome

/-- Whatever becomes of an answer, it takes no failure back. -/
theorem Accepts.grows {step : String} {before after : Call} {kind : Kind} {answer : Answer}
    {result : Except EngineError Unit}
    (h : setting.Accepts step before kind answer result after) :
    before.outcome.Grows after.outcome := by
  cases h with
  | rejected hrejected => exact Outcome.Grows.refl _
  | ignored hvalidate hoperation hoperations hcondition => exact Outcome.Grows.refl _
  | finished htruthy => exact Outcome.Grows.refl _
  | passed hsuccess => exact Outcome.Grows.refl _
  | failed hfailed => exact Outcome.grows_mergeFailures _ _
  | verdictPassed hsuccess => exact Outcome.Grows.refl _
  | verdictFailed hfailed => exact Outcome.grows_addErrorLists _ _
  | @operationPassed outcome hsuccess =>
    have hinformed : before.outcome.Grows
        (before.outcome.addInformation outcome.information) := Outcome.Grows.of_eq rfl rfl
    exact hinformed.trans (grows_nest setting step _ _)
  | @operationFailed outcome hfailed =>
    have hinformed : before.outcome.Grows
        (before.outcome.addInformation outcome.information) := Outcome.Grows.of_eq rfl rfl
    exact hinformed.trans (Outcome.grows_mergeFailures _ outcome)
  | operationsPassed hnone => exact grows_nest setting step _ _
  | operationsFailed hsome => exact Outcome.Grows.foldl Outcome.grows_mergeFailures _ _

end Setting

end OperationPipeline
