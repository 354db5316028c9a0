import OperationPipeline.Proofs.CourseLaws

set_option autoImplicit false

/-! # Where exceptions come from

An outcome mentions a text if one of its exceptions has it. No operation on outcomes makes up such
a text: whatever is mentioned afterwards was mentioned before, or was handed in. Hence the texts
that a single step leaves behind are those of its handler: of the outcome that the handler returns,
of its answer, or of its fault (`Stepped.mentions`). -/

namespace OperationPipeline

namespace Outcome

/-- Whether an exception of the outcome has the text. -/
def Mentions (outcome : Outcome) (text : String) : Prop :=
  ∃ entry ∈ outcome.exceptions, text ∈ entry.2

theorem not_mentions_empty (text : String) : ¬ Mentions {} text := by
  intro h
  obtain ⟨entry, hentry, -⟩ := h
  exact nomatch hentry

/-! ## Operations on outcomes -/

theorem mentions_addExceptionTexts {outcome : Outcome} {key : String} {texts : List String}
    {text : String} (h : (outcome.addExceptionTexts key texts).Mentions text) :
    outcome.Mentions text ∨ text ∈ texts := by
  obtain ⟨entry, hentry, htext⟩ := h
  rcases Entries.mem_put hentry with rfl | hentry
  · rcases List.mem_append.1 htext with htext | htext
    · cases hat : outcome.exceptions.at? key with
      | none =>
        rw [hat] at htext
        exact nomatch htext
      | some found =>
        rw [hat] at htext
        exact Or.inl ⟨(key, found), Entries.mem_of_at?_eq_some hat, htext⟩
    · exact Or.inr htext
  · exact Or.inl ⟨entry, hentry, htext⟩

theorem mentions_addException {outcome : Outcome} {step message text : String}
    {operation : Option String} (h : (outcome.addException step message operation).Mentions text) :
    outcome.Mentions text ∨ text = message :=
  (mentions_addExceptionTexts h).imp id List.mem_singleton.1

theorem mentions_addExceptions {outcome : Outcome} {exceptions : List (String × List String)}
    {text : String} (h : (outcome.addExceptions exceptions).Mentions text) :
    outcome.Mentions text ∨ ∃ entry ∈ exceptions, text ∈ entry.2 := by
  induction exceptions generalizing outcome with
  | nil => exact Or.inl h
  | cons first rest ih =>
    rcases ih h with h | ⟨entry, hentry, htext⟩
    · refine (mentions_addExceptionTexts h).imp id fun htext => ?_
      exact ⟨first, List.mem_cons_self, htext⟩
    · exact Or.inr ⟨entry, List.mem_cons_of_mem _ hentry, htext⟩

theorem exceptions_addError (outcome : Outcome) (field : String) (message : Json) :
    (outcome.addError field message).exceptions = outcome.exceptions := by
  rw [addError]
  split <;> rfl

theorem exceptions_addErrors (outcome : Outcome) (messages : List (String × Json)) :
    (outcome.addErrors messages).exceptions = outcome.exceptions := by
  induction messages generalizing outcome with
  | nil => rfl
  | cons first rest ih => exact (ih _).trans (exceptions_addError outcome first.1 first.2)

theorem mentions_addErrorLists {outcome : Outcome} {errors : Entries (List Json)} {text : String}
    (h : (outcome.addErrorLists errors).Mentions text) : outcome.Mentions text := by
  rw [Mentions, addErrorLists, exceptions_addErrors] at h
  exact h

theorem mentions_mergeFailures {outcome other : Outcome} {text : String}
    (h : (outcome.mergeFailures other).Mentions text) :
    outcome.Mentions text ∨ other.Mentions text :=
  (mentions_addExceptions h).imp mentions_addErrorLists id

theorem mentions_foldl_mergeFailures {outcome : Outcome} {others : List Outcome} {text : String}
    (h : (others.foldl mergeFailures outcome).Mentions text) :
    outcome.Mentions text ∨ ∃ other ∈ others, other.Mentions text := by
  induction others generalizing outcome with
  | nil => exact Or.inl h
  | cons first rest ih =>
    rcases ih h with h | ⟨other, hother, htext⟩
    · refine (mentions_mergeFailures h).imp id fun htext => ?_
      exact ⟨first, List.mem_cons_self, htext⟩
    · exact Or.inr ⟨other, List.mem_cons_of_mem _ hother, htext⟩

end Outcome

theorem Setting.mentions_nest {ω : Type} {setting : Setting ω} {step : String} {entry : TraceEntry}
    {outcome : Outcome} {text : String} (h : (setting.nest step entry outcome).Mentions text) :
    outcome.Mentions text := by
  unfold nest at h
  split at h
  · exact h
  · exact h

/-! ## Steps -/

/-- Whether the answer of a handler has outcomes that mention the text. -/
def Answer.Mentions (answer : Answer) (text : String) : Prop :=
  match answer with
  | .outcome found => found.Mentions text
  | .outcomes all => ∃ found ∈ all, found.Mentions text
  | .nothing | .flag _ | .value _ | .verdict _ => False

/-- Whether the text comes from the end of a handler: from its answer, or as the message of its
    fault. -/
def HandlerEnd.Brings (ending : HandlerEnd) (text : String) : Prop :=
  match ending.result with
  | .ok answer => answer.Mentions text
  | .error fault => text = fault.recovered.message

/-- Whether the text comes from a handler: it is there when the handler returns, or in its end. -/
def Event.Brings (event : Event) (text : String) : Prop :=
  ∃ path ending call, event = .returned path ending call
    ∧ (call.outcome.Mentions text ∨ ending.Brings text)

/-- Whether the text comes from one of the handlers that have returned. -/
def Event.Brought (events : List Event) (text : String) : Prop :=
  ∃ event ∈ events, event.Brings text

theorem Event.Brought.mono {events more : List Event} {text : String} (h : Brought events text)
    (hsubset : events ⊆ more) : Brought more text := by
  obtain ⟨event, hevent, hbrings⟩ := h
  exact ⟨event, hsubset hevent, hbrings⟩

/-- Whether a fault is what is left of the fault of a handler that has returned. -/
def Event.FaultOfHandler (events : List Event) (recorded : Fault) : Prop :=
  ∃ path ending call fault, Event.returned path ending call ∈ events
    ∧ ending.result = .error fault ∧ recorded = fault.recovered

theorem Event.FaultOfHandler.mono {events more : List Event} {recorded : Fault}
    (h : FaultOfHandler events recorded) (hsubset : events ⊆ more) :
    FaultOfHandler more recorded := by
  obtain ⟨path, ending, call, fault, hreturned, hfault⟩ := h
  exact ⟨path, ending, call, fault, hsubset hreturned, hfault⟩

variable {ω : Type} {setting : Setting ω}

theorem Setting.Accepts.mentions {step : String} {before after : Call} {kind : Kind}
    {answer : Answer} {result : Except EngineError Unit} {text : String}
    (h : setting.Accepts step before kind answer result after)
    (hmentions : after.outcome.Mentions text) :
    before.outcome.Mentions text ∨ answer.Mentions text := by
  cases h with
  | rejected hrejected => exact Or.inl hmentions
  | ignored hvalidate hoperation hoperations hcondition => exact Or.inl hmentions
  | finished htruthy => exact Or.inl hmentions
  | passed hsuccess => exact Or.inl hmentions
  | failed hfailed => exact Outcome.mentions_mergeFailures hmentions
  | verdictPassed hsuccess => exact Or.inl hmentions
  | verdictFailed hfailed => exact Or.inl (Outcome.mentions_addErrorLists hmentions)
  | @operationPassed outcome hsuccess =>
    have hnested : (setting.nest step (.operation step outcome.trace)
        (before.outcome.addInformation outcome.information)).Mentions text := hmentions
    have hinformed := mentions_nest hnested
    exact Or.inl hinformed
  | @operationFailed outcome hfailed =>
    have hmerged : ((before.outcome.addInformation outcome.information).mergeFailures
        outcome).Mentions text := hmentions
    have hparts := Outcome.mentions_mergeFailures hmerged
    exact hparts
  | operationsPassed hnone => exact Or.inl (mentions_nest hmentions)
  | operationsFailed hsome =>
    refine (Outcome.mentions_foldl_mergeFailures hmentions).imp id fun hother => ?_
    obtain ⟨other, hother, htext⟩ := hother
    exact ⟨other, (List.mem_filter.1 hother).1, htext⟩

theorem Settled.mentions {step : String} {fault : Fault} {before after : Call}
    {events : List Event} {result : Except EngineError Unit}
    (h : Settled setting step fault before events result after) {text : String}
    (hmentions : after.outcome.Mentions text) :
    before.outcome.Mentions text ∨ text = fault.recovered.message := by
  cases h with
  | raised hauthoring => exact Or.inl hmentions
  | recorded hauthoring => exact Outcome.mentions_addException hmentions

/-- What a step leaves behind was there before, or comes from its handler. -/
theorem Stepped.mentions {path : Path} {kind : Kind} {step : String} {handler : Handler ω}
    {before after : Call} {events : List Event} {result : Except EngineError Unit}
    (h : Stepped setting path kind step handler before events result after) {text : String}
    (hmentions : after.outcome.Mentions text) :
    before.outcome.Mentions text ∨ Event.Brought events text := by
  cases h with
  | skipped hbackend hmeets hevents => exact Or.inl hmentions
  | answered hopening hclosing hhandler hanswer haccepts =>
    refine Or.inr ⟨_, List.mem_append_right _ (List.mem_cons_of_mem _ List.mem_cons_self),
      path, _, _, rfl, ?_⟩
    refine (haccepts.mentions hmentions).imp id fun htext => ?_
    rw [HandlerEnd.Brings, hanswer]
    exact htext
  | faulted hopening hclosing hhandler hfault hsettled =>
    refine Or.inr ⟨_, List.mem_append_right _ (List.mem_cons_of_mem _ List.mem_cons_self),
      path, _, _, rfl, ?_⟩
    refine (hsettled.mentions hmentions).imp id fun htext => ?_
    rw [HandlerEnd.Brings, hfault]
    exact htext

/-- What a step records is the fault of its handler. -/
theorem Stepped.recorded {path : Path} {kind : Kind} {step : String} {handler : Handler ω}
    {before after : Call} {events : List Event} {result : Except EngineError Unit}
    (h : Stepped setting path kind step handler before events result after) {recorded : Fault}
    (hevent : .recorded recorded ∈ events) : Event.FaultOfHandler events recorded := by
  cases h with
  | skipped hbackend hmeets hevents => exact (hevents _ hevent).elim
  | answered hopening hclosing hhandler hanswer haccepts =>
    simp only [List.mem_append, List.mem_cons, reduceCtorEq, false_or] at hevent
    rcases hevent with hevent | hevent
    · exact (hopening _ hevent).elim
    · exact (hclosing _ hevent).elim
  | faulted hopening hclosing hhandler hfault hsettled =>
    refine ⟨path, _, _, _, List.mem_append_right _ (List.mem_cons_of_mem _ List.mem_cons_self),
      hfault, ?_⟩
    simp only [List.mem_append, List.mem_cons, reduceCtorEq, false_or] at hevent
    rcases hevent with hevent | hevent | hevent
    · exact (hopening _ hevent).elim
    · exact (hclosing _ hevent).elim
    · cases hsettled with
      | raised hauthoring => exact nomatch hevent
      | recorded hauthoring => exact Event.recorded.inj (List.mem_singleton.1 hevent)

end OperationPipeline
