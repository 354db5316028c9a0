import OperationPipeline.Proofs.Checking
import OperationPipeline.Proofs.Merging
import OperationPipeline.Proofs.Threading

set_option autoImplicit false

/-! # Failures on their way up

What a step learns about failures is in the failed outcomes that its handler answers with
(`Event.failed`). If handlers leave the failures of their own call alone and no fault is recorded,
the failures of a call are those of the failed outcomes, taken over one after another
(`Invocation.failures_eq`). So a call that makes another one and is otherwise clean has the failures
of that call, and a chain of such calls those of the innermost one. -/

namespace OperationPipeline

/-! ## Failed outcomes -/

/-- The failed outcomes in the answer of a step that is run as the given kind. What a verdict that
    failed has to say counts as an outcome with these errors. -/
def Answer.failed (kind : Kind) (answer : Answer) : List Outcome :=
  match kind, answer with
  | .validate, .outcome found | .operation, .outcome found =>
    if found.isFailure then [found] else []
  | .validate, .verdict found => if found.success then [] else [{ errors := found.errors }]
  | .operations, .outcomes all => all.filter Outcome.isFailure
  | _, _ => []

theorem Answer.failed_of_success {found : Outcome} (h : found.isFailure = false) (kind : Kind) :
    failed kind (.outcome found) = [] := by
  cases kind <;> simp [failed, h]

theorem Answer.failed_of_failure {found : Outcome} (h : found.isFailure = true) {kind : Kind}
    (hkind : kind = .validate ∨ kind = .operation) : failed kind (.outcome found) = [found] := by
  rcases hkind with rfl | rfl <;> simp [failed, h]

/-- The failed outcomes that a handler answers with, if the event is its return. -/
def Event.failed {η : Type} (root : Instruction η) : Event → List Outcome
  | .returned path (.answered answer) _ =>
    match root.stepAt? path with
    | some (kind, _) => answer.failed kind
    | none => []
  | _ => []

variable {ω : Type} {setting : Setting ω} {root : Instruction (Handler ω)}

theorem Event.failed_answered {path : Path} {kind : Kind} {step : String}
    (hstep : root.stepAt? path = some (kind, step)) (answer : Answer) (call : Call) :
    failed root (.returned path (.answered answer) call) = answer.failed kind := by
  rw [failed, hstep]

/-! ## Steps -/

theorem Setting.onlyFailures_nest (step : String) (entry : TraceEntry) (outcome : Outcome) :
    (setting.nest step entry outcome).onlyFailures = outcome.onlyFailures := by
  rw [nest]
  split <;> rfl

theorem Setting.onlyFailures_tracedCall (step : String) (call : Call) :
    (setting.tracedCall step call).outcome.onlyFailures = call.outcome.onlyFailures := by
  rw [tracedCall]
  split <;> rfl

/-- Taking the answer of a step takes over the failures in it, and no others. -/
theorem Setting.Accepts.collects {step : String} {before after : Call} {kind : Kind}
    {answer : Answer} {result : Except EngineError Unit}
    (h : setting.Accepts step before kind answer result after) :
    after.outcome.onlyFailures
      = (answer.failed kind).foldl Outcome.mergeFailures before.outcome.onlyFailures := by
  cases h with
  | rejected hrejected => cases kind <;> cases answer <;> first | rfl | exact nomatch hrejected
  | ignored hvalidate hoperation hoperations hcondition =>
    cases kind <;> first | rfl | contradiction
  | finished htruthy => rfl
  | @passed outcome hsuccess =>
    rw [Answer.failed_of_success ((Outcome.isSuccess_eq_true_iff outcome).1 hsuccess)]
    rfl
  | @failed outcome hfailure =>
    rw [Answer.failed_of_failure hfailure (Or.inl rfl)]
    exact Outcome.onlyFailures_mergeFailures before.outcome outcome
  | @verdictPassed verdict hsuccess =>
    have hnone : Answer.failed .validate (.verdict verdict) = [] := if_pos hsuccess
    rw [hnone]
    rfl
  | @verdictFailed verdict hfailure =>
    have hone : Answer.failed .validate (.verdict verdict) = [{ errors := verdict.errors }] :=
      if_neg (by rw [hfailure]; exact Bool.false_ne_true)
    rw [hone]
    exact Outcome.onlyFailures_mergeFailures before.outcome { errors := verdict.errors }
  | @operationPassed outcome hsuccess =>
    rw [Answer.failed_of_success ((Outcome.isSuccess_eq_true_iff outcome).1 hsuccess)]
    exact onlyFailures_nest step _ (before.outcome.addInformation outcome.information)
  | @operationFailed outcome hfailure =>
    rw [Answer.failed_of_failure hfailure (Or.inr rfl)]
    exact Outcome.onlyFailures_mergeFailures (before.outcome.addInformation outcome.information)
      outcome
  | @operationsPassed outcomes hnone =>
    have hnone' : Answer.failed .operations (.outcomes outcomes) = [] := hnone
    rw [hnone']
    exact onlyFailures_nest step _ before.outcome
  | @operationsFailed outcomes hsome =>
    exact Outcome.onlyFailures_foldl_mergeFailures before.outcome
      (outcomes.filter Outcome.isFailure)

/-! ## Whatever is carried out -/

/-- Whether the failures after some events are those before, with those of the failed outcomes that
    handlers answered with taken over in turn, unless a fault was recorded. -/
def Collected (root : Instruction (Handler ω)) (before : Call) (events : List Event)
    (after : Call) : Prop :=
  (∀ fault, .recorded fault ∉ events) →
    after.outcome.onlyFailures
      = (events.flatMap (Event.failed root)).foldl Outcome.mergeFailures before.outcome.onlyFailures

/-- Everything that is carried out collects failures, if handlers add none of their own. -/
theorem threads_collected (hspares : ∀ leaf ∈ root.leaves, leaf.2.2.Spares Outcome.onlyFailures) :
    Threads setting root (Collected root) := by
  have hmid : ∀ {path kind step handler before ending mid},
      root.at? path = some (.leaf kind step handler) →
      handler.Leads (setting.tracedCall step before) ending mid →
        mid.outcome.onlyFailures = before.outcome.onlyFailures := by
    intro path kind step handler before ending mid hat hhandler
    have hspared := Instruction.view_of_leads hspares hat hhandler
    exact hspared.trans (Setting.onlyFailures_tracedCall step before)
  constructor
  case nil => exact fun call _ => rfl
  case append =>
    intro before mid after events later h hlater hunrecorded
    have hfirst := h fun fault hfault => hunrecorded fault (List.mem_append_left _ hfault)
    have hsecond := hlater fun fault hfault => hunrecorded fault (List.mem_append_right _ hfault)
    rw [List.flatMap_append, List.foldl_append, ← hfirst]
    exact hsecond
  case passing =>
    intro event hevent call _
    cases event with
    | entered _ _ => exact hevent.elim
    | returned _ _ _ => exact hevent.elim
    | _ => rfl
  case timed => exact fun call label timing _ => rfl
  case settled =>
    intro step fault before after events result hsettled hunrecorded
    cases hsettled with
    | raised hauthoring => rfl
    | recorded hauthoring => exact (hunrecorded _ List.mem_cons_self).elim
  case answered =>
    intro path kind step handler before mid after ending answer result hat hhandler hanswer haccepts
      _
    obtain rfl := HandlerEnd.eq_answered hanswer
    have hfailed : [Event.entered path (setting.tracedCall step before),
        .returned path (.answered answer) mid].flatMap (Event.failed root)
          = answer.failed (Scope.leafKind kind (root.inheritedAt .step path)) := by
      rw [List.flatMap_cons, List.flatMap_singleton,
        Event.failed_answered (Instruction.stepAt?_of_at? hat)]
      rfl
    rw [hfailed, ← hmid hat hhandler]
    exact haccepts.collects
  case faulted =>
    intro path kind step handler before mid ending fault hat hhandler hfault _
    cases ending with
    | answered answer => exact nomatch hfault
    | faulted fault => exact hmid hat hhandler
    | panicked panic => exact hmid hat hhandler

/-! ## Calls in a chain -/

namespace Invocation

/-- The failures of a call are those of the failed outcomes that its handlers answered with. -/
theorem failures_eq {invocation : Invocation ω} {returned : Outcome}
    (hspares : ∀ leaf ∈ Instruction.leavesAll invocation.instructions,
      leaf.2.2.Spares Outcome.onlyFailures)
    (hunrecorded : ∀ fault, .recorded fault ∉ invocation.transcript)
    (h : invocation.result = .ok returned) :
    returned.onlyFailures
      = (invocation.transcript.flatMap (Event.failed invocation.tree)).foldl
          Outcome.mergeFailures {} := by
  obtain ⟨htranscript, -, rfl⟩ := Setting.of_perform_eq_ok h
  have hcourse := invocation.setting.takes_followCall invocation.instructions
    invocation.arguments invocation.world
  rw [← htranscript] at hcourse
  exact hcourse.threads (threads_collected hspares) hunrecorded

/-- Whether a call makes another one in an `operation` step and is otherwise clean: its handlers add
    no failures to its own outcome, no error arises in it, no fault is recorded, and the only
    outcome with failures that a handler answers with can be the one that the inner call returns. -/
structure Relays (outer inner : Invocation ω) : Prop where
  spares : ∀ leaf ∈ Instruction.leavesAll outer.instructions,
    leaf.2.2.Spares Outcome.onlyFailures
  unraised : ∀ error later, ¬ outer.Arises error later
  unrecorded : ∀ fault, .recorded fault ∉ outer.transcript
  answers : ∀ returned, inner.result = .ok returned →
    ∃ earlier path step call later,
      outer.transcript
          = earlier ++ .returned path (.answered (.outcome returned)) call :: later
        ∧ outer.tree.stepAt? path = some (.operation, step)
        ∧ ∀ event ∈ earlier ++ later, event.failed outer.tree = []

/-- A call that makes another one and is otherwise clean has the failures of that one. -/
theorem Relays.result_eq_ok {outer inner : Invocation ω} (h : outer.Relays inner)
    {returned : Outcome} (hreturned : inner.result = .ok returned) (htidy : returned.Tidy) :
    ∃ relayed, outer.result = .ok relayed ∧ relayed.onlyFailures = returned.onlyFailures := by
  cases hresult : outer.result with
  | error error =>
    obtain ⟨later, harises⟩ := arises_of_result hresult
    exact (h.unraised error later harises).elim
  | ok relayed =>
    refine ⟨relayed, rfl, ?_⟩
    obtain ⟨earlier, path, step, call, later, htranscript, hstep, hclean⟩ :=
      h.answers returned hreturned
    have hnone : ∀ events, events ⊆ earlier ++ later →
        events.flatMap (Event.failed outer.tree) = [] := by
      intro events hevents
      exact List.flatMap_eq_nil_iff.2 fun event hevent => hclean event (hevents hevent)
    have hfailed : outer.transcript.flatMap (Event.failed outer.tree)
        = Answer.failed .operation (.outcome returned) := by
      rw [htranscript, List.flatMap_append, List.flatMap_cons, Event.failed_answered hstep,
        hnone earlier (List.subset_append_left _ _), hnone later (List.subset_append_right _ _),
        List.nil_append, List.append_nil]
    have hfailures := failures_eq h.spares h.unrecorded hresult
    rw [hfailed] at hfailures
    cases hfailure : returned.isFailure with
    | true =>
      rw [Answer.failed_of_failure hfailure (Or.inr rfl)] at hfailures
      have honly : relayed.onlyFailures.onlyFailures
          = (Outcome.mergeFailures {} returned).onlyFailures :=
        congrArg Outcome.onlyFailures hfailures
      exact honly.trans (Outcome.onlyFailures_mergeFailures_of_success htidy rfl)
    | false =>
      rw [Answer.failed_of_success hfailure] at hfailures
      obtain ⟨herrors, hexceptions⟩ : returned.errors = [] ∧ returned.exceptions = [] := by
        simpa [Outcome.isFailure] using hfailure
      rw [hfailures, Outcome.onlyFailures, herrors, hexceptions]
      rfl

/-- The failures of the innermost call of a chain are those of all calls around it. -/
theorem relayed_of_relays {n : Nat} {calls : Nat → Invocation ω} {returned : Outcome}
    (hrelays : ∀ i < n, (calls i).Relays (calls (i + 1)))
    (hreturned : (calls n).result = .ok returned) (htidy : returned.Tidy) :
    ∀ i ≤ n, ∃ relayed, (calls i).result = .ok relayed
      ∧ relayed.onlyFailures = returned.onlyFailures := by
  induction n generalizing calls with
  | zero =>
    intro i hi
    obtain rfl := Nat.le_zero.1 hi
    exact ⟨returned, hreturned, rfl⟩
  | succ n ih =>
    have hinner : ∀ i ≤ n, ∃ relayed, (calls (i + 1)).result = .ok relayed
        ∧ relayed.onlyFailures = returned.onlyFailures :=
      ih (fun i hi => hrelays (i + 1) (Nat.succ_lt_succ hi)) hreturned
    intro i hi
    cases i with
    | zero =>
      obtain ⟨mid, hmid, hsame⟩ := hinner 0 n.zero_le
      obtain ⟨relayed, hrelayed, hsame'⟩ := (hrelays 0 n.succ_pos).result_eq_ok hmid
        (Outcome.tidy_of_onlyFailures_eq htidy hsame)
      exact ⟨relayed, hrelayed, hsame'.trans hsame⟩
    | succ i => exact hinner i (Nat.le_of_succ_le_succ hi)

/-- Taking over failures has the laws of an ordered monoid, for all outcomes that are built by
    edits: an outcome without failures gets those of the other one as they are; what is taken over
    from two outcomes may be taken over from them together; what is taken over twice adds no error
    the second time, and repeats the exceptions; there is a failure afterwards if there was one on
    either side; and nothing else of the outcome changes. Hence the failures of the innermost call
    of a chain, in which calls make others in `operation` steps and are otherwise clean, are those
    that the outermost one returns, in the same order, however long the chain is. -/
theorem failures_reach_root :
    (∀ (output output₁ output₂ output₃ : Json) (edits₁ edits₂ edits₃ : List Outcome.Edit),
        let fresh := Outcome.withOutput output
        let a := Outcome.built output₁ edits₁
        let b := Outcome.built output₂ edits₂
        let c := Outcome.built output₃ edits₃
        let ab := a.mergeFailures b
        ((fresh.mergeFailures b).errors = b.errors
            ∧ (fresh.mergeFailures b).exceptions = b.exceptions)
          ∧ a.mergeFailures (b.mergeFailures c) = ab.mergeFailures c
          ∧ (ab.mergeFailures b).errors = ab.errors
          ∧ (ab.mergeFailures b).exceptions.keys = ab.exceptions.keys
          ∧ (∀ key, ((ab.mergeFailures b).exceptions.at? key).getD []
            = (ab.exceptions.at? key).getD [] ++ (b.exceptions.at? key).getD [])
          ∧ (ab.isFailure = true ↔ a.isFailure = true ∨ b.isFailure = true)
          ∧ ab.information = a.information ∧ ab.trace = a.trace ∧ ab.output = a.output)
      ∧ ∀ (n : Nat) (calls : Nat → Invocation ω) (returned : Outcome),
        (∀ i < n, (calls i).Relays (calls (i + 1))) →
        (∀ leaf ∈ Instruction.leavesAll (calls n).instructions, leaf.2.2.Edits) →
        (calls n).result = .ok returned →
          ∀ i ≤ n, ∃ relayed, (calls i).result = .ok relayed
            ∧ relayed.errors = returned.errors ∧ relayed.exceptions = returned.exceptions := by
  constructor
  · intro output output₁ output₂ output₃ edits₁ edits₂ edits₃ fresh a b c ab
    have ha : a.Tidy := Outcome.tidy_built output₁ edits₁
    have hb : b.Tidy := Outcome.tidy_built output₂ edits₂
    have hc : c.Tidy := Outcome.tidy_built output₃ edits₃
    have hfresh : (fresh.mergeFailures b).onlyFailures = b.onlyFailures :=
      Outcome.onlyFailures_mergeFailures_of_success hb rfl
    refine ⟨Outcome.onlyFailures_eq_iff.1 hfresh, Outcome.mergeFailures_assoc ha hb hc,
      Outcome.errors_mergeFailures_twice ha hb,
      Outcome.keys_exceptions_mergeFailures_twice a hb, Outcome.at?_exceptions_mergeFailures ab hb,
      Outcome.isFailure_mergeFailures_iff a hb, ?_, ?_, ?_⟩
    · exact Outcome.view_mergeFailures Outcome.information (fun _ _ _ => rfl) a b
    · exact Outcome.view_mergeFailures Outcome.trace (fun _ _ _ => rfl) a b
    · exact Outcome.view_mergeFailures Outcome.output (fun _ _ _ => rfl) a b
  · intro n calls returned hrelays hedits hreturned i hi
    have htidy : returned.Tidy := Setting.keeps_of_perform Outcome.stable_tidy
      (fun leaf hleaf => (hedits leaf hleaf).keeps Outcome.stable_tidy)
      (Outcome.tidy_withOutput .null) hreturned
    obtain ⟨relayed, hrelayed, hsame⟩ := relayed_of_relays hrelays hreturned htidy i hi
    exact ⟨relayed, hrelayed, Outcome.onlyFailures_eq_iff.1 hsame⟩

/-- A call that makes another one and does nothing else. -/
def called (inner : Invocation Unit) : Invocation Unit where
  setting := .direct
  instructions := [.leaf .operation "call" (inner.handler [])]
  arguments := {}
  world := ()

/-- A call whose only step leaves an error. -/
def complaining : Invocation Unit where
  setting := .direct
  instructions := [.leaf .step "check" Handler.complain]
  arguments := {}
  world := ()

/-- A call that makes another one is clean if nothing happens in it but that. -/
theorem relays_called {inner : Invocation Unit} {returned relayed : Outcome}
    {began entered mid ended : Call} (hreturned : inner.result = .ok returned)
    (hrelayed : inner.called.result = .ok relayed)
    (htranscript : inner.called.transcript = [.began [0] began, .entered [0] entered,
      .returned [0] (.answered (.outcome returned)) mid, .ended [0] (.ok ()) ended]) :
    inner.called.Relays inner where
  spares := by
    intro leaf hleaf state
    obtain rfl := List.mem_singleton.1 hleaf
    dsimp only [handler]
    split <;> rfl
  unraised := by
    intro error later harises
    have hbackend : inner.called.setting.Transacts .passesErrorsOn :=
      Setting.transacts_direct.imp fun _ _ h => h.passesErrorsOn
    exact nomatch hrelayed.symm.trans (harises.escapes hbackend).1
  unrecorded := by simp [htranscript]
  answers := by
    intro other hother
    obtain rfl := Except.ok.inj (hother.symm.trans hreturned)
    refine ⟨[_, _], [0], _, mid, [_], htranscript, rfl, ?_⟩
    simp [Event.failed]

/-- Three calls, each of which makes the next one. -/
def chainedCalls : Nat → Invocation Unit
  | 0 => complaining.called.called
  | 1 => complaining.called
  | _ => complaining

/-- The error of the innermost call is the one that the outermost call returns. -/
theorem complaint_reaches_root :
    (∀ i < 2, (chainedCalls i).Relays (chainedCalls (i + 1)))
      ∧ (∀ leaf ∈ Instruction.leavesAll (chainedCalls 2).instructions, leaf.2.2.Edits)
      ∧ ∃ returned relayed, (chainedCalls 2).result = .ok returned
        ∧ (chainedCalls 0).result = .ok relayed ∧ relayed.errors = returned.errors
        ∧ relayed.isFailure = true := by
  have hrelays : ∀ i < 2, (chainedCalls i).Relays (chainedCalls (i + 1)) := by
    intro i hi
    match i, hi with
    | 0, _ => exact relays_called rfl rfl rfl
    | 1, _ => exact relays_called rfl rfl rfl
  have hedits : ∀ leaf ∈ Instruction.leavesAll (chainedCalls 2).instructions, leaf.2.2.Edits := by
    intro leaf hleaf
    obtain rfl := List.mem_singleton.1 hleaf
    exact Handler.edits_complain
  obtain ⟨relayed, hrelayed, herrors, -⟩ :=
    failures_reach_root.2 2 chainedCalls _ hrelays hedits rfl 0 (Nat.zero_le 2)
  refine ⟨hrelays, hedits, _, relayed, rfl, hrelayed, herrors, ?_⟩
  rw [Outcome.isFailure, herrors]
  rfl

end Invocation

end OperationPipeline
