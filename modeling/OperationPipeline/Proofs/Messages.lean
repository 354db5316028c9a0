import OperationPipeline.Proofs.CourseLaws

set_option autoImplicit false

/-! # Every error has something to say

Adding a message that is `null` adds nothing. So every field of the errors of an outcome has a
message, and none of its messages is `null` (`Outcome.Explicit`). Edits keep this, and so does
everything that is carried out if the handlers do (`Course.keeps`); hence it holds of whatever a
call returns (`Setting.explicit_of_perform`).

Because of it, merging a failed outcome makes a failure (`Outcome.isFailure_mergeFailures`). Lists
of messages from elsewhere have to be looked at: they make a failure if one of their messages is not
`null` (`Outcome.isFailure_addErrorLists_iff`). -/

namespace OperationPipeline

/-! ## Lists of messages -/

namespace Messages

theorem isNull_of_mem_absorb {messages : List Json}
    (hmessages : ∀ item ∈ messages, item.isNull = false) {message : Json}
    (hmessage : message.isNull = false) {item : Json} (hitem : item ∈ absorb messages message) :
    item.isNull = false := by
  have hextended := mem_of_mem_distinct hitem
  unfold extended at hextended
  split at hextended
  · rcases List.mem_cons.1 hextended with rfl | hrest
    · rfl
    · exact hmessages item (List.mem_cons_of_mem _ hrest)
  · rcases List.mem_append.1 hextended with hold | hnew
    · exact hmessages item hold
    · simpa using (List.mem_filter.1 hnew).2
  · rcases List.mem_append.1 hextended with hold | hnew
    · exact hmessages item hold
    · rw [List.mem_singleton.1 hnew]
      exact hmessage

theorem extended_array (messages items : List Json) :
    extended messages (.array items) = messages ++ items.filter fun item => !item.isNull := by
  cases messages with
  | nil => rfl
  | cons head rest => cases head <;> rfl

/-- Nothing is left of a list to which nothing is added. -/
theorem absorb_array_eq_nil_iff (messages items : List Json) :
    absorb messages (.array items) = []
      ↔ messages = [] ∧ ∀ item ∈ items, item.isNull = true := by
  rw [absorb, distinct_eq_nil_iff, extended_array, List.append_eq_nil_iff, List.filter_eq_nil_iff]
  simp

end Messages

namespace Outcome

/-! ## Explicit outcomes -/

/-- Whether every field of the errors has a message, and none of the messages is `null`. -/
def Explicit (outcome : Outcome) : Prop :=
  ∀ entry ∈ outcome.errors, entry.2 ≠ [] ∧ ∀ message ∈ entry.2, message.isNull = false

theorem Explicit.filled {outcome : Outcome} (h : outcome.Explicit) : outcome.Filled :=
  fun entry hentry => (h entry hentry).1

theorem explicit_withOutput (output : Json) : (withOutput output).Explicit :=
  fun _ hentry => nomatch hentry

theorem Explicit.addError {outcome : Outcome} (h : outcome.Explicit) (field : String)
    (message : Json) : (outcome.addError field message).Explicit := by
  rcases addError_cases h.filled field message with hsame | ⟨hmessage, hne, hput⟩
  · rw [hsame]
    exact h
  rw [hput]
  intro entry hentry
  rcases Entries.mem_put hentry with rfl | hold
  · refine ⟨hne, fun item hitem => ?_⟩
    refine Messages.isNull_of_mem_absorb (fun old hold => ?_) hmessage hitem
    cases hat : outcome.errors.at? field with
    | none =>
      rw [hat] at hold
      exact (List.not_mem_nil hold).elim
    | some messages =>
      rw [hat] at hold
      exact (h _ (Entries.mem_of_at?_eq_some hat)).2 old hold
  · exact h entry hold

theorem Explicit.addErrors {outcome : Outcome} (h : outcome.Explicit)
    (messages : List (String × Json)) : (outcome.addErrors messages).Explicit := by
  induction messages generalizing outcome with
  | nil => exact h
  | cons first rest ih => exact ih (h.addError first.1 first.2)

theorem errors_addExceptions (outcome : Outcome) (exceptions : List (String × List String)) :
    (outcome.addExceptions exceptions).errors = outcome.errors := by
  induction exceptions generalizing outcome with
  | nil => rfl
  | cons first rest ih => exact ih (outcome.addExceptionTexts first.1 first.2)

/-- Whether a property of outcomes is kept by edits and does not depend on the trace. -/
structure Stable (property : Outcome → Prop) : Prop where
  apply : ∀ {outcome : Outcome} (edit : Edit), property outcome → property (outcome.apply edit)
  retrace : ∀ {outcome : Outcome} (trace : List TraceEntry), property outcome →
    property { outcome with trace }

theorem stable_explicit : Stable Explicit where
  apply := by
    intro outcome edit h
    cases edit with
    | addError field message => exact h.addError field message
    | addErrors messages => exact h.addErrors messages
    | addExceptions exceptions =>
      rw [apply, Explicit, errors_addExceptions]
      exact h
    | mergeFailures other =>
      rw [apply, mergeFailures, Explicit, errors_addExceptions]
      exact h.addErrors _
    | addException step text operation => exact h
    | addInformation information => exact h
    | addTrace entry => exact h
    | setOutput output => exact h
    | editOutput change => exact h
  retrace := fun _ h => h

theorem Stable.applyAll {property : Outcome → Prop} (hstable : Stable property) {outcome : Outcome}
    (h : property outcome) (edits : List Edit) : property (outcome.applyAll edits) := by
  induction edits generalizing outcome with
  | nil => exact h
  | cons edit rest ih => exact ih (hstable.apply edit h)

/-- Whatever is built by edits is explicit. -/
theorem explicit_built (output : Json) (edits : List Edit) : (built output edits).Explicit :=
  stable_explicit.applyAll (explicit_withOutput output) edits

/-! ## Failures -/

/-- Adding a list of messages makes a failure if and only if one of them is not `null`. -/
theorem isFailure_addError_array_iff {outcome : Outcome} (hfilled : outcome.Filled)
    (field : String) (items : List Json) :
    (outcome.addError field (.array items)).isFailure = true
      ↔ outcome.isFailure = true ∨ ∃ item ∈ items, item.isNull = false := by
  constructor
  · intro hfailed
    by_cases hnull : ∃ item ∈ items, item.isNull = false
    · exact Or.inr hnull
    refine Or.inl ?_
    cases hat : outcome.errors.at? field with
    | some messages =>
      have hne := List.ne_nil_of_mem (Entries.mem_of_at?_eq_some hat)
      simp [isFailure, hne]
    | none =>
      have hempty : Messages.absorb [] (.array items) = [] := by
        refine (Messages.absorb_array_eq_nil_iff [] items).2 ⟨rfl, fun item hitem => ?_⟩
        cases hitem' : item.isNull with
        | true => rfl
        | false => exact absurd ⟨item, hitem, hitem'⟩ hnull
      have hsame : outcome.addError field (.array items) = outcome := by
        simp only [addError, Json.isNull, hat, Option.getD_none, hempty, List.isEmpty_nil, if_true,
          Entries.remove_of_at?_eq_none hat, Bool.false_eq_true, if_false]
      rw [hsame] at hfailed
      exact hfailed
  · rintro (hfailed | ⟨item, hitem, hsome⟩)
    · exact (grows_addError outcome field _ hfilled).2 hfailed
    · have hne : Messages.absorb ((outcome.errors.at? field).getD []) (.array items) ≠ [] := by
        rw [Ne, Messages.absorb_array_eq_nil_iff]
        rintro ⟨-, hnull⟩
        exact Bool.false_ne_true (hsome.symm.trans (hnull item hitem))
      simp [addError, Json.isNull, isFailure, List.isEmpty_iff, hne, Entries.put_ne_nil]

/-- Adding lists of messages makes a failure if and only if one of the messages is not `null`. -/
theorem isFailure_addErrorLists_iff {outcome : Outcome} (hfilled : outcome.Filled)
    (errors : Entries (List Json)) :
    (outcome.addErrorLists errors).isFailure = true
      ↔ outcome.isFailure = true ∨ ∃ entry ∈ errors, ∃ item ∈ entry.2, item.isNull = false := by
  induction errors generalizing outcome with
  | nil => simp [addErrorLists, addErrors]
  | cons first rest ih =>
    have hfilled' := (grows_addError outcome first.1 (.array first.2) hfilled).1
    have hrest : outcome.addErrorLists (first :: rest)
        = (outcome.addError first.1 (.array first.2)).addErrorLists rest := rfl
    rw [hrest, ih hfilled', isFailure_addError_array_iff hfilled, or_assoc]
    simp only [List.mem_cons, exists_eq_or_imp]

theorem isFailure_addExceptions {outcome : Outcome} {exceptions : List (String × List String)}
    (hfilled : outcome.Filled) (h : outcome.isFailure = true ∨ exceptions ≠ []) :
    (outcome.addExceptions exceptions).isFailure = true := by
  cases exceptions with
  | nil => exact h.resolve_right fun hne => hne rfl
  | cons first rest =>
    have hfirst := isFailure_addExceptionTexts outcome first.1 first.2
    have hfilled' := (grows_addExceptionTexts outcome first.1 first.2 hfilled).1
    exact (grows_addExceptions _ rest hfilled').2 hfirst

/-- Taking over the failures of a failed outcome makes a failure. -/
theorem isFailure_mergeFailures {outcome other : Outcome} (hfilled : outcome.Filled)
    (hother : other.Explicit) (hfailed : other.isFailure = true) :
    (outcome.mergeFailures other).isFailure = true := by
  rw [mergeFailures]
  refine isFailure_addExceptions (grows_addErrorLists outcome other.errors hfilled).1 ?_
  -- exceptions always make a failure; without any there is an error, which has something to say
  by_cases hexceptions : other.exceptions = []
  · refine Or.inl ((isFailure_addErrorLists_iff hfilled other.errors).2 (Or.inr ?_))
    cases herrors : other.errors with
    | nil => simp [isFailure, herrors, hexceptions] at hfailed
    | cons entry rest =>
      have hentry : entry ∈ other.errors := by
        rw [herrors]
        exact List.mem_cons_self
      obtain ⟨hne, hsome⟩ := hother entry hentry
      obtain ⟨item, hitem⟩ := List.exists_mem_of_ne_nil _ hne
      exact ⟨entry, List.mem_cons_self, item, hitem, hsome item hitem⟩
  · exact Or.inr hexceptions

theorem isFailure_foldl_mergeFailures {outcome : Outcome} {others : List Outcome}
    (hfilled : outcome.Filled) (hne : others ≠ [])
    (hothers : ∀ other ∈ others, other.Explicit ∧ other.isFailure = true) :
    (others.foldl mergeFailures outcome).isFailure = true := by
  cases others with
  | nil => exact absurd rfl hne
  | cons first rest =>
    obtain ⟨hexplicit, hfailed⟩ := hothers first List.mem_cons_self
    have hmerged := isFailure_mergeFailures hfilled hexplicit hfailed
    have hfilled' := (grows_mergeFailures outcome first hfilled).1
    exact (Grows.foldl grows_mergeFailures rest _ hfilled').2 hmerged

end Outcome

/-! ## Whatever is carried out -/

variable {ω : Type} {setting : Setting ω} {property : Outcome → Prop}

theorem Outcome.Stable.nest (hstable : Outcome.Stable property) (step : String)
    (entry : TraceEntry) {outcome : Outcome} (h : property outcome) :
    property (setting.nest step entry outcome) := by
  rw [Setting.nest]
  split
  · exact hstable.retrace _ h
  · exact h

theorem Setting.Accepts.keeps {step : String} {before after : Call} {kind : Kind}
    {answer : Answer} {result : Except EngineError Unit}
    (h : setting.Accepts step before kind answer result after)
    (hstable : Outcome.Stable property) (hbefore : property before.outcome) :
    property after.outcome := by
  cases h with
  | rejected hrejected => exact hbefore
  | ignored hvalidate hoperation hoperations hcondition => exact hbefore
  | finished htruthy => exact hbefore
  | passed hsuccess => exact hbefore
  | @failed outcome hfailed => exact hstable.apply (.mergeFailures outcome) hbefore
  | verdictPassed hsuccess => exact hbefore
  | @verdictFailed verdict hfailed => exact hstable.apply (.addErrors _) hbefore
  | @operationPassed outcome hsuccess =>
    exact hstable.nest _ _ (hstable.apply (.addInformation outcome.information) hbefore)
  | @operationFailed outcome hfailed =>
    have hinformed := hstable.apply (.addInformation outcome.information) hbefore
    exact hstable.apply (.mergeFailures outcome) hinformed
  | operationsPassed hnone => exact hstable.nest _ _ hbefore
  | @operationsFailed outcomes hsome =>
    have hedits := hstable.applyAll hbefore
      ((outcomes.filter Outcome.isFailure).map Outcome.Edit.mergeFailures)
    rw [Outcome.applyAll, List.foldl_map] at hedits
    exact hedits

theorem Settled.keeps {step : String} {fault : Fault} {before after : Call} {events : List Event}
    {result : Except EngineError Unit}
    (h : Settled setting step fault before events result after)
    (hstable : Outcome.Stable property) (hbefore : property before.outcome) :
    property after.outcome := by
  cases h with
  | raised hauthoring => exact hbefore
  | recorded hauthoring => exact hstable.apply (.addException step _ setting.name) hbefore

theorem Closed.keeps {before after : Call} {last : Except Abort Unit} {events : List Event}
    {result : Except EngineError Unit} (h : Closed setting before last events result after)
    (hstable : Outcome.Stable property) (hbefore : property before.outcome) :
    property after.outcome := by
  cases h with
  | committed => exact hbefore
  | rolledBack hsignal => exact hbefore
  | faulted hsignal hsettled => exact hsettled.keeps hstable hbefore

theorem Setting.keeps_tracedCall (hstable : Outcome.Stable property) (step : String) {call : Call}
    (h : property call.outcome) : property (setting.tracedCall step call).outcome := by
  rw [tracedCall]
  split
  · exact hstable.apply (.addTrace (.step step)) h
  · exact h

/-- Whether a handler keeps a property of the outcome. -/
def Handler.Keeps (handler : Handler ω) (property : Outcome → Prop) : Prop :=
  ∀ state, property state.call.outcome → property (handler state).2.call.outcome

theorem Handler.Edits.keeps {handler : Handler ω} (h : handler.Edits)
    (hstable : Outcome.Stable property) : handler.Keeps property := by
  intro state hstate
  obtain ⟨edits, hedits⟩ := h state
  rw [hedits]
  exact hstable.applyAll hstate edits

theorem Handler.Leads.keeps {handler : Handler ω} {before after : Call} {ending : HandlerEnd}
    (h : handler.Leads before ending after) (hkeeps : handler.Keeps property)
    (hbefore : property before.outcome) : property after.outcome := by
  obtain ⟨world, world', hrun⟩ := h
  have hafter := hkeeps ⟨before, world⟩ hbefore
  rw [hrun] at hafter
  exact hafter

theorem Stepped.keeps {path : Path} {kind : Kind} {step : String} {handler : Handler ω}
    {before after : Call} {events : List Event} {result : Except EngineError Unit}
    (h : Stepped setting path kind step handler before events result after)
    (hstable : Outcome.Stable property) (hkeeps : handler.Keeps property)
    (hbefore : property before.outcome) : property after.outcome := by
  have htraced := setting.keeps_tracedCall hstable step hbefore
  cases h with
  | skipped hbackend hmeets hevents => exact hbefore
  | answered _ _ hhandler _ haccepts => exact haccepts.keeps hstable (hhandler.keeps hkeeps htraced)
  | faulted _ _ hhandler _ hsettled => exact hsettled.keeps hstable (hhandler.keeps hkeeps htraced)

/-- Whether all handlers of a task keep a property of the outcome. -/
def Task.Keeps (task : Task (Handler ω)) (property : Outcome → Prop) : Prop :=
  ∀ leaf ∈ task.leaves, leaf.2.2.Keeps property

theorem Task.Keeps.head {path : Path} {index : Nat} {instruction : Instruction (Handler ω)}
    {rest : List (Instruction (Handler ω))} {scope : Scope}
    (h : (Task.members path index (instruction :: rest) scope).Keeps property) :
    (Task.node (path ++ [index]) instruction scope.leaf).Keeps property :=
  fun leaf hleaf => h leaf (List.mem_append_left _ hleaf)

theorem Task.Keeps.tail {path : Path} {index : Nat} {instruction : Instruction (Handler ω)}
    {rest : List (Instruction (Handler ω))} {scope : Scope}
    (h : (Task.members path index (instruction :: rest) scope).Keeps property) :
    (Task.members path (index + 1) rest scope).Keeps property :=
  fun leaf hleaf => h leaf (List.mem_append_right _ hleaf)

/-- Whatever is carried out keeps what edits and the handlers keep. -/
theorem Course.keeps {task : Task (Handler ω)} {before after : Call} {events : List Event}
    {result : Except EngineError Unit} (h : Course setting task before events result after)
    (hstable : Outcome.Stable property) (hkeeps : task.Keeps property)
    (hbefore : property before.outcome) : property after.outcome := by
  induction h with
  | node h ih => exact ih hkeeps hbefore
  | plain htransaction hbenchmark h ih => exact ih hkeeps hbefore
  | untimed hkind h ih => exact ih hkeeps hbefore
  | timed hkind h ih => exact hstable.apply (.addInformation _) (ih hkeeps hbefore)
  | unbacked hkind hbackend => exact hbefore
  | backed hkind hbackend hmeets h hclosed ih => exact hclosed.keeps hstable (ih hkeeps hbefore)
  | noRound => exact hbefore
  | round h hlater ih ihlater => exact ihlater hkeeps (ih hkeeps hbefore)
  | leaf h => exact h.keeps hstable (hkeeps _ List.mem_cons_self) hbefore
  | block h ih => exact ih hkeeps hbefore
  | nil => exact hbefore
  | raised h ih => exact ih hkeeps.head hbefore
  | stopped h hstops ih => exact ih hkeeps.head hbefore
  | next h hstops hlater ih ihlater => exact ihlater hkeeps.tail (ih hkeeps.head hbefore)

theorem CallCourse.keeps {instructions : List (Instruction (Handler ω))} {start after : Call}
    {events : List Event} {result : Option (Except EngineError Unit)}
    (h : CallCourse setting instructions start events result after)
    (hstable : Outcome.Stable property)
    (hkeeps : ∀ leaf ∈ Instruction.leavesAll instructions, leaf.2.2.Keeps property)
    (hstart : property start.outcome) : property after.outcome := by
  cases h with
  | skipped hbackend hmeets hevents => exact hstart
  | walked hopening hclosing h => exact h.keeps hstable hkeeps hstart

/-- Whatever a call returns has a property that is stable, if the handlers keep it. -/
theorem Setting.keeps_of_perform {instructions : List (Instruction (Handler ω))}
    {arguments : Arguments} {world : ω} {outcome : Outcome} (hstable : Outcome.Stable property)
    (hkeeps : ∀ leaf ∈ Instruction.leavesAll instructions, leaf.2.2.Keeps property)
    (hempty : property {}) (h : (setting.perform instructions arguments world).1 = .ok outcome) :
    property outcome := by
  obtain ⟨-, -, rfl⟩ := of_perform_eq_ok h
  exact (setting.takes_followCall instructions arguments world).keeps hstable hkeeps hempty

theorem Setting.explicit_of_perform {instructions : List (Instruction (Handler ω))}
    {arguments : Arguments} {world : ω} {outcome : Outcome}
    (hkeeps : ∀ leaf ∈ Instruction.leavesAll instructions, leaf.2.2.Keeps Outcome.Explicit)
    (h : (setting.perform instructions arguments world).1 = .ok outcome) : outcome.Explicit :=
  keeps_of_perform Outcome.stable_explicit hkeeps (Outcome.explicit_withOutput .null) h

end OperationPipeline
