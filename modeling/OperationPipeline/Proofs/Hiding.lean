import OperationPipeline.Proofs.AddedErrors
import OperationPipeline.Proofs.Lockstep

set_option autoImplicit false

/-! # What is seen besides some information

Some may not look at everything in the information of outcomes: the entries under certain keys are
hidden from them (`Entries.besides`). They see the rest of a call (`Call.besides`), and they are not
told what passes between the engine and the transaction backend (`Vantage.besides`).

No step of the walk goes by the information in the outcome of its own call. So it looks the same
after a step whatever is under the hidden keys before it (`Setting.inStep_besides`). -/

namespace OperationPipeline

namespace Entries

variable {α : Type}

/-! ## Entries -/

/-- The entries under keys that are not hidden, in key order. Of several entries for one key the
    first counts. -/
def besides (hidden : List String) : Entries α → Entries α
  | [] => []
  | (key, value) :: rest =>
    if key ∈ hidden then besides hidden rest else (besides hidden rest).place key value

theorem at?_besides (hidden : List String) (entries : Entries α) (key : String) :
    (entries.besides hidden).at? key = if key ∈ hidden then none else entries.at? key := by
  induction entries with
  | nil => simp [besides]
  | cons entry rest ih =>
    obtain ⟨k, v⟩ := entry
    by_cases hk : k = key
    · subst hk
      by_cases hhidden : k ∈ hidden <;> simp [besides, at?, at?_place, hhidden, ih]
    · by_cases hhidden : k ∈ hidden <;> simp [besides, at?, at?_place, hhidden, hk, ih]

theorem besides_place (hidden : List String) (key : String) (value : α) (entries : Entries α) :
    (entries.place key value).besides hidden
      = if key ∈ hidden then entries.besides hidden
        else (entries.besides hidden).place key value := by
  induction entries with
  | nil => rfl
  | cons entry rest ih =>
    obtain ⟨k, v⟩ := entry
    by_cases hk : k = key
    · subst hk
      by_cases hhidden : k ∈ hidden <;> simp [place, besides, hhidden, place_place_same]
    · by_cases hlt : key < k
      · simp [place, besides, hk, hlt]
      · by_cases hhidden : key ∈ hidden
        · simp [place, besides, hk, hlt, hhidden, ih]
        · by_cases hother : k ∈ hidden
          · simp [place, besides, hk, hlt, hhidden, hother, ih]
          · simp [place, besides, hk, hlt, hhidden, hother, ih, place_comm (Ne.symm hk)]

/-- What is placed does not make a difference show that did not show before. -/
theorem besides_placeAll_congr {hidden : List String} {entries entries' : Entries α}
    (h : entries.besides hidden = entries'.besides hidden) (added : Entries α) :
    (entries.placeAll added).besides hidden = (entries'.placeAll added).besides hidden := by
  induction added generalizing entries entries' with
  | nil => exact h
  | cons entry rest ih => exact ih (by rw [besides_place, besides_place, h])

end Entries

/-! ## Outcomes and calls with other information -/

/-- The outcome with other information. -/
def Outcome.informed (information : Entries Json) (outcome : Outcome) : Outcome :=
  { outcome with information }

namespace Outcome

/-- The outcome without the entries under the hidden keys. -/
def besides (hidden : List String) (outcome : Outcome) : Outcome :=
  outcome.informed (outcome.information.besides hidden)

theorem addErrors_informed (information : Entries Json) (outcome : Outcome)
    (messages : List (String × Json)) :
    (outcome.informed information).addErrors messages
      = (outcome.addErrors messages).informed information := by
  induction messages generalizing outcome with
  | nil => rfl
  | cons first rest ih =>
    have hfirst : (outcome.informed information).addError first.1 first.2
        = (outcome.addError first.1 first.2).informed information := by
      rw [addError, addError]
      split <;> rfl
    exact (congrArg (addErrors · rest) hfirst).trans (ih _)

theorem addExceptions_informed (information : Entries Json) (outcome : Outcome)
    (exceptions : List (String × List String)) :
    (outcome.informed information).addExceptions exceptions
      = (outcome.addExceptions exceptions).informed information := by
  induction exceptions generalizing outcome with
  | nil => rfl
  | cons first rest ih => exact ih (outcome.addExceptionTexts first.1 first.2)

theorem mergeFailures_informed (information : Entries Json) (outcome other : Outcome) :
    (outcome.informed information).mergeFailures other
      = (outcome.mergeFailures other).informed information := by
  rw [mergeFailures, addErrorLists, addErrors_informed, addExceptions_informed]
  rfl

theorem foldl_mergeFailures_informed (information : Entries Json) (outcome : Outcome)
    (others : List Outcome) :
    others.foldl mergeFailures (outcome.informed information)
      = (others.foldl mergeFailures outcome).informed information := by
  induction others generalizing outcome with
  | nil => rfl
  | cons other rest ih =>
    rw [List.foldl_cons, List.foldl_cons, mergeFailures_informed, ih]

end Outcome

namespace Call

/-- The call with other information in its outcome. -/
def informed (information : Entries Json) (call : Call) : Call :=
  call.mapOutcome (·.informed information)

/-- The call without the entries under the hidden keys. -/
def besides (hidden : List String) (call : Call) : Call :=
  call.mapOutcome (·.besides hidden)

variable {hidden : List String}

/-- Without the hidden entries two calls are the same if they differ in information only, and in
    none that shows. -/
theorem besides_eq_iff {call call' : Call} :
    call.besides hidden = call'.besides hidden
      ↔ call' = call.informed call'.outcome.information
        ∧ call.outcome.information.besides hidden = call'.outcome.information.besides hidden := by
  constructor
  · intro h
    have hother := congrArg (informed call'.outcome.information) h
    exact ⟨hother.symm, congrArg (·.outcome.information) h⟩
  · rintro ⟨hother, hsame⟩
    have hseen : call.besides hidden = call.informed (call'.outcome.information.besides hidden) :=
      congrArg (fun seen => call.informed seen) hsame
    rw [hseen, hother]
    rfl

/-- Whether a change of calls never makes a difference show that did not show before. -/
def Overlooks (hidden : List String) (change : Call → Call) : Prop :=
  ∀ call call' : Call, call.besides hidden = call'.besides hidden →
    (change call).besides hidden = (change call').besides hidden

theorem Overlooks.comp {change later : Call → Call} (h : Overlooks hidden change)
    (hlater : Overlooks hidden later) : Overlooks hidden fun call => later (change call) :=
  fun _ _ hcall => hlater _ _ (h _ _ hcall)

/-- A change that neither goes by the information nor changes it overlooks all of it. -/
theorem Overlooks.of_informed {change : Call → Call}
    (h : ∀ call information,
      change (call.informed information) = (change call).informed information) :
    Overlooks hidden change := by
  intro call call' hcall
  obtain ⟨hother, hsame⟩ := besides_eq_iff.1 hcall
  have hown := h call call.outcome.information
  have hchanged : change call' = (change call).informed call'.outcome.information :=
    (congrArg change hother).trans (h call _)
  calc (change call).besides hidden
      = ((change call).informed call.outcome.information).besides hidden := congrArg _ hown
    _ = (change call).informed (call'.outcome.information.besides hidden) :=
      congrArg (fun seen => (change call).informed seen) hsame
    _ = (change call').besides hidden := congrArg (besides hidden) hchanged.symm

theorem overlooks_addInformation (hidden : List String) (information : List (String × Json)) :
    Overlooks hidden (·.mapOutcome (·.addInformation information)) := by
  intro call call' hcall
  obtain ⟨hother, hsame⟩ := besides_eq_iff.1 hcall
  refine besides_eq_iff.2 ⟨?_, Entries.besides_placeAll_congr hsame information⟩
  exact congrArg (mapOutcome (·.addInformation information)) hother

theorem overlooks_mergeFailures (hidden : List String) (other : Outcome) :
    Overlooks hidden (·.mapOutcome (·.mergeFailures other)) :=
  .of_informed fun call information =>
    congrArg (fun outcome => { call with outcome })
      (Outcome.mergeFailures_informed information call.outcome other)

/-- What is recorded under a hidden key does not show. -/
theorem besides_addInformation {label : String} (hlabel : label ∈ hidden) (value : Json)
    (call : Call) :
    (call.mapOutcome (·.addInformation [(label, value)])).besides hidden = call.besides hidden := by
  have hplaced : (call.outcome.information.placeAll [(label, value)]).besides hidden
      = call.outcome.information.besides hidden := by
    show (call.outcome.information.place label value).besides hidden = _
    rw [Entries.besides_place, if_pos hlabel]
  exact congrArg (fun seen => call.informed seen) hplaced

end Call

namespace Setting

variable {ω : Type} (setting : Setting ω)

theorem overlooks_nest (hidden : List String) (step : String) (entry : TraceEntry) :
    Call.Overlooks hidden (·.mapOutcome (setting.nest step entry)) := by
  refine .of_informed fun call information => ?_
  have hnest : setting.nest step entry (call.outcome.informed information)
      = (setting.nest step entry call.outcome).informed information := by
    rw [nest, nest]
    split <;> rfl
  exact congrArg (fun outcome => { call with outcome }) hnest

theorem overlooks_tracedCall (hidden : List String) (step : String) :
    Call.Overlooks hidden (setting.tracedCall step) := by
  refine .of_informed fun call information => ?_
  rw [tracedCall, tracedCall]
  split <;> rfl

/-- To take an answer is a change of the call, and how it ends does not depend on the call. -/
theorem overlooks_accept (hidden : List String) (kind : Kind) (step : String) (answer : Answer) :
    ∃ result change, Call.Overlooks hidden change
      ∧ ∀ state, setting.accept kind step answer state
        = (result, { state with call := change state.call }) := by
  have hsame : Call.Overlooks hidden id := fun _ _ => id
  have hrecord : ∀ output, Call.Overlooks hidden (·.recordOutput step output) :=
    fun output => .of_informed fun _ _ => rfl
  cases kind with
  | validate =>
    cases answer with
    | outcome outcome =>
      cases hsuccess : outcome.isSuccess with
      | true => exact ⟨_, _, hrecord outcome.output, fun state => if_pos hsuccess⟩
      | false =>
        exact ⟨_, _, Call.overlooks_mergeFailures hidden outcome,
          fun state => if_neg (Bool.eq_false_iff.1 hsuccess)⟩
    | verdict verdict =>
      cases hsuccess : verdict.success with
      | true => exact ⟨_, _, hrecord (.object verdict.values), fun state => if_pos hsuccess⟩
      | false =>
        exact ⟨_, _, Call.overlooks_mergeFailures hidden { errors := verdict.errors },
          fun state => if_neg (Bool.eq_false_iff.1 hsuccess)⟩
    | _ => exact ⟨_, id, hsame, fun state => rfl⟩
  | operation =>
    cases answer with
    | outcome outcome =>
      have hinform := Call.overlooks_addInformation hidden outcome.information
      cases hsuccess : outcome.isSuccess with
      | true =>
        exact ⟨_, _, (hinform.comp (setting.overlooks_nest hidden step _)).comp
          (hrecord outcome.output), fun state => if_pos hsuccess⟩
      | false =>
        exact ⟨_, _, hinform.comp (Call.overlooks_mergeFailures hidden outcome),
          fun state => if_neg (Bool.eq_false_iff.1 hsuccess)⟩
    | _ => exact ⟨_, id, hsame, fun state => rfl⟩
  | operations =>
    cases answer with
    | outcomes outcomes =>
      cases hfailed : (outcomes.filter Outcome.isFailure).isEmpty with
      | true =>
        exact ⟨_, _, (setting.overlooks_nest hidden step _).comp (hrecord _),
          fun state => if_pos hfailed⟩
      | false =>
        refine ⟨_, _, ?_, fun state => if_neg (Bool.eq_false_iff.1 hfailed)⟩
        exact .of_informed fun call information =>
          congrArg (fun outcome => { call with outcome })
            (Outcome.foldl_mergeFailures_informed information call.outcome _)
    | _ => exact ⟨_, id, hsame, fun state => rfl⟩
  | finishIf =>
    cases htruthy : answer.truthy with
    | true => exact ⟨_, _, .of_informed fun _ _ => rfl, fun state => if_pos htruthy⟩
    | false =>
      exact ⟨_, id, hsame, fun state => if_neg (Bool.eq_false_iff.1 htruthy)⟩
  | _ => exact ⟨_, id, hsame, fun state => rfl⟩

end Setting

/-! ## What is seen -/

/-- What is seen of an event by those to whom entries are hidden and who are not told what passes
    between the engine and the transaction backend. -/
def Event.besides (hidden : List String) : Event → Option Event
  | .began path call => some (.began path (call.besides hidden))
  | .ended path result call => some (.ended path result (call.besides hidden))
  | .entered path call => some (.entered path (call.besides hidden))
  | .returned path ending call => some (.returned path ending (call.besides hidden))
  | .transactionOpened _ _ | .blockAnswered _ => none
  | other => some other

/-- What is seen from a vantage point, besides the entries under the hidden keys in the outcomes of
    calls and the talk between the engine and the transaction backend. -/
def Vantage.besides {ω ν : Type} (see : Vantage ω ν) (hidden : List String) : Sight ω ν where
  world := see.world
  call running := (see.call running).besides hidden
  answer := see.answer
  event happened := (see.event happened).bind (Event.besides hidden)
  finished_call _ := rfl
  isFailure_call _ := rfl
  event_began _ _ := rfl
  event_ended _ _ _ := rfl
  event_entered _ _ := rfl
  event_returned _ ending _ := by cases ending <;> rfl

/-- The vantage point on worlds with a log from which as much is seen of logs. -/
def Vantage.onLogs {ω ν : Type} (see : Vantage ω ν) (hidden : List String) :
    Vantage (Logged ω) (Logged ν) where
  world := (see.besides hidden).logged.world
  value := see.value
  trace := see.trace
  instrumentation := see.instrumentation

theorem Vantage.besides_onLogs {ω ν : Type} (see : Vantage ω ν) (hidden : List String) :
    (see.onLogs hidden).besides hidden = (see.besides hidden).logged := rfl

namespace Setting

variable {ω ν : Type} {see : Vantage ω ν} {hidden : List String} {setting : Setting ω}

/-- A setting runs in step with itself whatever is hidden, if its reporter, its clock and its
    instrumentation go by what is seen of the world. -/
theorem inStep_besides
    (hreport : ∀ fault world world', see.world world = see.world world' →
      see.world (setting.report fault world) = see.world (setting.report fault world'))
    (hclock : ∀ before before' after after', see.world before = see.world before' →
      see.world after = see.world after' →
      see.value (setting.clock before after).toJson
        = see.value (setting.clock before' after').toJson)
    (hinstrumented : ∀ {α β : Type} (view : α → β) (traceName : String) (level : TraceLevel)
      {work work' : State ω → α × State ω}, (see.besides hidden).Agree view work work' →
      (see.besides hidden).Agree (Option.map view) (setting.instrumented traceName level work)
        (setting.instrumented traceName level work')) :
    InStep (see.besides hidden) setting setting where
  traced step state state' hstate := by
    obtain ⟨hcall, hworld⟩ := Sight.state_eq_iff.1 hstate
    have hseen : ∀ state, see.call (setting.traced step state).call
        = (see.setting setting).tracedCall step (see.call state.call) := by
      intro state
      have htraced := congrArg State.call (see.state_traced setting step state)
      rwa [traced_eq (see.setting setting)] at htraced
    refine Sight.state_eq_iff.2 ⟨?_, ?_⟩
    · show (see.call _).besides hidden = (see.call _).besides hidden
      rw [hseen, hseen]
      exact (see.setting setting).overlooks_tracedCall hidden step _ _ hcall
    · rw [traced_eq, traced_eq]
      exact hworld
  settle step fault state state' hstate := by
    rw [settle, settle]
    cases fault.authoring? with
    | some error => exact ⟨rfl, hstate⟩
    | none =>
      obtain ⟨hcall, hworld⟩ := Sight.state_eq_iff.1 hstate
      have hadd : Call.Overlooks hidden
          (·.mapOutcome (·.addException step fault.recovered.message setting.name)) :=
        .of_informed fun _ _ => rfl
      exact ⟨rfl, Sight.state_eq_iff.2 ⟨hadd _ _ hcall, hreport fault.recovered _ _ hworld⟩⟩
  accept kind step answer answer' hanswer state state' hstate := by
    have hanswer : see.answer answer = see.answer answer' := hanswer
    obtain ⟨result, change, hchange, haccept⟩ :=
      (see.setting setting).overlooks_accept hidden kind step (see.answer answer)
    have hseen := (see.shows_accept setting kind step answer state).trans (haccept _)
    have hseen' := see.shows_accept setting kind step answer' state'
    rw [← hanswer, haccept] at hseen'
    obtain ⟨hresult, hafter⟩ := Prod.mk.inj hseen
    obtain ⟨hresult', hafter'⟩ := Prod.mk.inj hseen'
    obtain ⟨hcall, hworld⟩ := Sight.state_eq_iff.1 hstate
    refine ⟨hresult.trans hresult'.symm, Sight.state_eq_iff.2 ⟨?_, ?_⟩⟩
    · have hafters := congrArg State.call hafter
      have hafters' := congrArg State.call hafter'
      show (see.call _).besides hidden = (see.call _).besides hidden
      exact (congrArg _ hafters).trans ((hchange _ _ hcall).trans (congrArg _ hafters'.symm))
    · exact (congrArg State.world hafter).trans (hworld.trans (congrArg State.world hafter').symm)
  timed label before before' after after' hbefore hafter := by
    obtain ⟨hcall, hworld⟩ := Sight.state_eq_iff.1 hafter
    have htiming := hclock _ _ _ _ hbefore hworld
    show (see.call _).besides hidden = (see.call _).besides hidden
    rw [see.call_addInformation, see.call_addInformation]
    simp only [Vantage.information, List.map_cons, List.map_nil, htiming]
    exact Call.overlooks_addInformation hidden _ _ _ hcall
  instrumented view traceName level work work' hwork := hinstrumented view traceName level hwork

/-- A benchmark whose label is hidden does what its body does, as far as is seen. -/
theorem agree_hidden_benchmark {label : String} (hlabel : label ∈ hidden)
    {work work' : State ω → Except EngineError Unit × State ω}
    (hwork : (see.besides hidden).Agree id work work') :
    (see.besides hidden).Agree id (setting.runBenchmark label work) work' := by
  intro state state' hstate
  obtain ⟨hresult, hafter⟩ := hwork state state' hstate
  rw [runBenchmark]
  generalize work state = ended at hresult hafter ⊢
  obtain ⟨result, after⟩ := ended
  cases result with
  | error error => exact ⟨hresult, hafter⟩
  | ok u =>
    obtain ⟨hcall, hworld⟩ := Sight.state_eq_iff.1 hafter
    refine ⟨hresult, Sight.state_eq_iff.2 ⟨?_, hworld⟩⟩
    refine Eq.trans ?_ hcall
    show (see.call _).besides hidden = (see.call _).besides hidden
    exact (congrArg _ (see.call_addInformation _ _)).trans (Call.besides_addInformation hlabel _ _)

end Setting

end OperationPipeline
