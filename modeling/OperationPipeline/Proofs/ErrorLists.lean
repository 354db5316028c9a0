import OperationPipeline.Proofs.Messages

set_option autoImplicit false

/-! # Lists of messages by field

However an outcome has been changed, its errors are in order: every field has a message, no message
is `null`, no two messages of a field are equal and no field is listed twice (`Outcome.Tidy`). All
of it comes down to adding one error (`Outcome.addError_cases`), which either changes nothing or
puts a list without repetitions under its field. No field is ever removed: the fields before a
change are the first ones after it (`Outcome.Extends`). -/

namespace OperationPipeline

/-! ## Lists without repetitions -/

namespace Messages

/-- Whether no two messages are equal. -/
def Apart (messages : List Json) : Prop :=
  messages.Pairwise fun message other => message.same other = false

theorem apart_distinct (messages : List Json) : Apart (distinct messages) := by
  induction messages with
  | nil => exact List.Pairwise.nil
  | cons first rest ih =>
    rw [distinct, Apart, List.pairwise_cons]
    refine ⟨fun other hother => ?_, ih.filter _⟩
    simpa using (List.mem_filter.1 hother).2

theorem distinct_of_apart {messages : List Json} (h : Apart messages) :
    distinct messages = messages := by
  induction messages with
  | nil => rfl
  | cons first rest ih =>
    obtain ⟨hfirst, hrest⟩ := List.pairwise_cons.1 h
    rw [distinct, ih hrest, List.filter_eq_self.2]
    intro other hother
    simp [hfirst other hother]

end Messages

/-! ## Keys -/

namespace Entries

variable {α : Type}

theorem mem_keys_of_mem {entries : Entries α} {entry : String × α} (h : entry ∈ entries) :
    entry.1 ∈ entries.keys :=
  List.mem_map_of_mem h

theorem keys_prefix_put (key : String) (value : α) (entries : Entries α) :
    entries.keys <+: (entries.put key value).keys := by
  rw [keys_put]
  split
  · exact List.prefix_rfl
  · exact List.prefix_append _ _

theorem nodup_keys_put (key : String) (value : α) {entries : Entries α}
    (h : entries.keys.Nodup) : (entries.put key value).keys.Nodup := by
  rw [keys_put]
  split
  · exact h
  · rename_i hnew
    rw [List.nodup_append]
    refine ⟨h, List.pairwise_singleton _ key, fun old hold added hadded => ?_⟩
    rw [List.mem_singleton.1 hadded]
    exact fun hsame => hnew (hsame ▸ hold)

end Entries

namespace Outcome

/-! ## Tidy outcomes -/

/-- Whether the failures of an outcome are in order. -/
structure Tidy (outcome : Outcome) : Prop where
  /-- Every field has a message, and no message is `null`. -/
  explicit : outcome.Explicit
  /-- No two messages of a field are equal. -/
  apart : ∀ entry ∈ outcome.errors, Messages.Apart entry.2
  /-- No field is listed twice. -/
  fields : outcome.errors.keys.Nodup
  /-- No step is listed twice. -/
  steps : outcome.exceptions.keys.Nodup

theorem tidy_withOutput (output : Json) : (withOutput output).Tidy where
  explicit := explicit_withOutput output
  apart := fun _ hentry => nomatch hentry
  fields := List.nodup_nil
  steps := List.nodup_nil

/-- Whether a change leaves a tidy outcome tidy, and every field and step in its place. -/
def Extends (before after : Outcome) : Prop :=
  before.Tidy → after.Tidy ∧ before.errors.keys <+: after.errors.keys
    ∧ before.exceptions.keys <+: after.exceptions.keys

theorem Extends.refl (outcome : Outcome) : outcome.Extends outcome :=
  fun htidy => ⟨htidy, List.prefix_rfl, List.prefix_rfl⟩

theorem Extends.trans {first second third : Outcome} (h : first.Extends second)
    (h' : second.Extends third) : first.Extends third := by
  intro htidy
  obtain ⟨htidy', hfields, hsteps⟩ := h htidy
  obtain ⟨htidy'', hfields', hsteps'⟩ := h' htidy'
  exact ⟨htidy'', hfields.trans hfields', hsteps.trans hsteps'⟩

/-- A change of the other fields. -/
theorem Extends.of_eq {before after : Outcome} (herrors : after.errors = before.errors)
    (hexceptions : after.exceptions = before.exceptions) : before.Extends after := by
  intro htidy
  rw [herrors, hexceptions]
  refine ⟨⟨?_, ?_, ?_, ?_⟩, List.prefix_rfl, List.prefix_rfl⟩
  · rw [Explicit, herrors]
    exact htidy.explicit
  · rw [herrors]
    exact htidy.apart
  · rw [herrors]
    exact htidy.fields
  · rw [hexceptions]
    exact htidy.steps

theorem Extends.foldl {ε : Type} {step : Outcome → ε → Outcome}
    (hstep : ∀ (outcome : Outcome) (item : ε), outcome.Extends (step outcome item))
    (items : List ε) (outcome : Outcome) : outcome.Extends (items.foldl step outcome) := by
  induction items generalizing outcome with
  | nil => exact Extends.refl outcome
  | cons item rest ih => exact (hstep outcome item).trans (ih (step outcome item))

/-! ## Edits -/

theorem extends_addError (outcome : Outcome) (field : String) (message : Json) :
    outcome.Extends (outcome.addError field message) := by
  intro htidy
  have hexplicit := htidy.explicit.addError field message
  rcases addError_cases htidy.explicit.filled field message with hsame | ⟨-, -, hput⟩
  · rw [hsame]
    exact Extends.refl outcome htidy
  · rw [hput] at hexplicit ⊢
    refine ⟨⟨hexplicit, fun entry hentry => ?_, ?_, htidy.steps⟩, ?_, List.prefix_rfl⟩
    · rcases Entries.mem_put hentry with rfl | hold
      · exact Messages.apart_distinct _
      · exact htidy.apart entry hold
    · exact Entries.nodup_keys_put _ _ htidy.fields
    · exact Entries.keys_prefix_put _ _ _

theorem extends_addErrors (outcome : Outcome) (messages : List (String × Json)) :
    outcome.Extends (outcome.addErrors messages) := by
  unfold addErrors
  exact Extends.foldl (fun outcome item => extends_addError outcome item.1 item.2) messages outcome

theorem extends_addExceptionTexts (outcome : Outcome) (key : String) (texts : List String) :
    outcome.Extends (outcome.addExceptionTexts key texts) := by
  intro htidy
  refine ⟨⟨htidy.explicit, htidy.apart, htidy.fields, ?_⟩, List.prefix_rfl, ?_⟩
  · exact Entries.nodup_keys_put _ _ htidy.steps
  · exact Entries.keys_prefix_put _ _ _

theorem extends_addExceptions (outcome : Outcome) (exceptions : List (String × List String)) :
    outcome.Extends (outcome.addExceptions exceptions) := by
  unfold addExceptions
  exact Extends.foldl (fun outcome item => extends_addExceptionTexts outcome item.1 item.2)
    exceptions outcome

theorem extends_mergeFailures (outcome other : Outcome) :
    outcome.Extends (outcome.mergeFailures other) :=
  (extends_addErrors outcome _).trans (extends_addExceptions _ other.exceptions)

theorem extends_apply (outcome : Outcome) (edit : Edit) :
    outcome.Extends (outcome.apply edit) := by
  cases edit with
  | addError field message => exact extends_addError outcome field message
  | addErrors messages => exact extends_addErrors outcome messages
  | addException step text operation => exact extends_addExceptionTexts outcome _ _
  | addExceptions exceptions => exact extends_addExceptions outcome exceptions
  | mergeFailures other => exact extends_mergeFailures outcome other
  | addInformation information => exact Extends.of_eq rfl rfl
  | addTrace entry => exact Extends.of_eq rfl rfl
  | setOutput output => exact Extends.of_eq rfl rfl
  | editOutput change => exact Extends.of_eq rfl rfl

theorem extends_applyAll (outcome : Outcome) (edits : List Edit) :
    outcome.Extends (outcome.applyAll edits) :=
  Extends.foldl extends_apply edits outcome

theorem stable_tidy : Stable Tidy where
  apply := fun edit htidy => (extends_apply _ edit htidy).1
  retrace := fun _ htidy => ⟨htidy.explicit, htidy.apart, htidy.fields, htidy.steps⟩

/-- Whatever is built by edits is tidy. -/
theorem tidy_built (output : Json) (edits : List Edit) : (built output edits).Tidy :=
  stable_tidy.applyAll (tidy_withOutput output) edits

theorem built_append (output : Json) (edits later : List Edit) :
    built output (edits ++ later) = (built output edits).applyAll later :=
  applyAll_append _ _ _

/-- After any edits, with whatever messages, every field of the errors has a message, none of its
    messages is `null` and no two of them are equal; no field is listed twice. Later edits remove no
    field, nor do they move one, and they take no failure back. -/
theorem fields_hold_distinct_messages (output : Json) (edits : List Edit) :
    let outcome := built output edits
    (∀ entry ∈ outcome.errors, entry.2 ≠ [] ∧ (∀ message ∈ entry.2, message.isNull = false)
        ∧ entry.2.Pairwise fun message other => message.same other = false)
      ∧ outcome.errors.keys.Nodup
      ∧ ∀ later : List Edit,
        outcome.errors.keys <+: (built output (edits ++ later)).errors.keys
          ∧ (outcome.isFailure = true → (built output (edits ++ later)).isFailure = true) := by
  intro outcome
  have htidy : outcome.Tidy := tidy_built output edits
  refine ⟨fun entry hentry => ?_, htidy.fields, fun later => ?_⟩
  · obtain ⟨hfilled, hsome⟩ := htidy.explicit entry hentry
    exact ⟨hfilled, hsome, htidy.apart entry hentry⟩
  · rw [built_append]
    obtain ⟨-, hfields, -⟩ := extends_applyAll outcome later htidy
    exact ⟨hfields, (grows_applyAll outcome later htidy.explicit.filled).2⟩

end Outcome

end OperationPipeline
