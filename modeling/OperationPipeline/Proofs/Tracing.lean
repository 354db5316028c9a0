import OperationPipeline.Proofs.Checking
import OperationPipeline.Proofs.Merging
import OperationPipeline.Proofs.Order
import OperationPipeline.Proofs.Threading

set_option autoImplicit false

/-! # What the trace shows

While steps are traced, each handler that is entered leaves one entry. The entry is written before
the handler runs, and once more when its answer is taken; in between it is the last one of the
trace, as long as handlers leave the trace alone. So a step only ever adds to the trace, and what it
adds can be told from how its handler ends (`TraceEntry.ofEnding`). -/

namespace OperationPipeline

/-! ## Entries -/

/-- The entry that is left by a step of the given kind whose handler ends in the given way: it holds
    the traces of the calls that were made, if calls are what the step is for and all of them were
    successful. -/
def TraceEntry.ofEnding (kind : Kind) (step : String) (ending : HandlerEnd) : TraceEntry :=
  match kind, ending with
  | .operation, .answered (.outcome outcome) =>
    if outcome.isSuccess then .operation step outcome.trace else .step step
  | .operations, .answered (.outcomes outcomes) =>
    if outcomes.all Outcome.isSuccess then .operations step (outcomes.map (·.trace))
    else .step step
  | _, _ => .step step

theorem TraceEntry.name_ofEnding (kind : Kind) (step : String) (ending : HandlerEnd) :
    (ofEnding kind step ending).name = step := by
  unfold ofEnding
  split
  · split <;> rfl
  · split <;> rfl
  · rfl

/-- The entry that the step at the path leaves if its handler ends in the given way. -/
def Instruction.entryAt? {η : Type} (root : Instruction η) (path : Path) (ending : HandlerEnd) :
    Option TraceEntry :=
  (root.stepAt? path).map fun (kind, step) => .ofEnding kind step ending

theorem Instruction.map_name_entryAt? {η : Type} (root : Instruction η) (path : Path)
    (ending : HandlerEnd) :
    (root.entryAt? path ending).map TraceEntry.name = (root.stepAt? path).map Prod.snd := by
  rw [entryAt?, Option.map_map]
  exact congrArg (fun name => (root.stepAt? path).map name)
    (funext fun (kind, step) => TraceEntry.name_ofEnding kind step ending)

/-! ## Returns of handlers -/

/-- The path of the handler that returns, and how it ends, if the event is such a return. -/
def Event.return? : Event → Option (Path × HandlerEnd)
  | .returned path ending _ => some (path, ending)
  | .began _ _ | .ended _ _ _ | .entered _ _ | .transactionOpened _ _ | .blockAnswered _
  | .traceOpened _ _ _ | .traceRan | .recorded _ => none

/-- How handlers end, in turn, with the paths of their steps. -/
def Event.returns (events : List Event) : List (Path × HandlerEnd) :=
  events.filterMap return?

theorem Event.returns_append (first second : List Event) :
    returns (first ++ second) = returns first ++ returns second :=
  List.filterMap_append

variable {ω : Type} {setting : Setting ω} {root : Instruction (Handler ω)}

/-! ## Steps -/

theorem Setting.tracesSteps_iff : setting.config.tracesSteps = true
    ↔ setting.config.mode = .development := by
  rw [Config.tracesSteps, beq_iff_eq]

/-- The entry of the step that was run last gives way to a nested one. -/
theorem Setting.nest_of_last (outcome : Outcome) {earlier : List TraceEntry} {step : String}
    (htraces : setting.config.tracesSteps = true) (hlast : outcome.trace = earlier ++ [.step step])
    (entry : TraceEntry) : (setting.nest step entry outcome).trace = earlier ++ [entry] := by
  rw [nest, if_pos htraces]
  simp [nestedTrace, hlast]

/-- Taking the answer of a step settles what its entry is, and touches no earlier one. -/
theorem Setting.Accepts.trace_eq {step : String} {before after : Call} {kind : Kind}
    {answer : Answer} {result : Except EngineError Unit}
    (h : setting.Accepts step before kind answer result after)
    (htraces : setting.config.tracesSteps = true) {earlier : List TraceEntry}
    (hlast : before.outcome.trace = earlier ++ [.step step]) :
    after.outcome.trace = earlier ++ [.ofEnding kind step (.answered answer)] := by
  have hmerge : ∀ outcome other, (Outcome.mergeFailures outcome other).trace = outcome.trace :=
    Outcome.view_mergeFailures Outcome.trace fun _ _ _ => rfl
  cases h with
  | rejected hrejected =>
    rw [hlast]
    cases kind <;> cases answer <;> first | rfl | exact nomatch hrejected
  | ignored hvalidate hoperation hoperations hcondition =>
    rw [hlast]
    cases kind <;> first | rfl | contradiction
  | finished htruthy => exact hlast
  | passed hsuccess => exact hlast
  | failed hfailure => exact (hmerge _ _).trans hlast
  | verdictPassed hsuccess => exact hlast
  | verdictFailed hfailure =>
    exact (Outcome.view_addErrors Outcome.trace (fun _ _ => rfl) _ _).trans hlast
  | @operationPassed outcome hsuccess =>
    have hentry : TraceEntry.ofEnding .operation step (.answered (.outcome outcome))
        = .operation step outcome.trace := if_pos hsuccess
    rw [hentry]
    exact nest_of_last (before.outcome.addInformation _) htraces hlast _
  | @operationFailed outcome hfailure =>
    have hentry : TraceEntry.ofEnding .operation step (.answered (.outcome outcome))
        = .step step := if_neg (by simp [Outcome.isSuccess, hfailure])
    rw [hentry]
    exact (hmerge _ _).trans hlast
  | @operationsPassed outcomes hnone =>
    have hall : outcomes.all Outcome.isSuccess = true := by
      simpa [Outcome.isSuccess, List.filter_eq_nil_iff] using hnone
    have hentry : TraceEntry.ofEnding .operations step (.answered (.outcomes outcomes))
        = .operations step (outcomes.map (·.trace)) := if_pos hall
    rw [hentry]
    exact nest_of_last _ htraces hlast _
  | @operationsFailed outcomes hsome =>
    have hnotAll : ¬ outcomes.all Outcome.isSuccess = true := by
      simpa [Outcome.isSuccess, List.filter_eq_nil_iff] using hsome
    have hentry : TraceEntry.ofEnding .operations step (.answered (.outcomes outcomes))
        = .step step := if_neg hnotAll
    rw [hentry]
    exact (Outcome.view_foldl_mergeFailures Outcome.trace (fun _ _ _ => rfl) _ _).trans hlast

theorem Setting.trace_tracedCall (htraces : setting.config.tracesSteps = true) (step : String)
    (call : Call) :
    (setting.tracedCall step call).outcome.trace = call.outcome.trace ++ [.step step] := by
  rw [tracedCall, if_pos htraces]
  rfl

/-! ## Whatever is carried out -/

/-- Whether each handler that is entered also returns, and the trace grows by one entry for each,
    in the same order. -/
structure Traced (root : Instruction (Handler ω)) (before : Call) (events : List Event)
    (after : Call) : Prop where
  entered : (Event.returns events).map Prod.fst = Event.enteredPaths events
  entries : ∃ entries, after.outcome.trace = before.outcome.trace ++ entries
    ∧ entries.map some
      = (Event.returns events).map fun (path, ending) => root.entryAt? path ending

/-- The names of entries are those of the steps whose handlers were entered. -/
theorem Traced.map_name {entries : List TraceEntry} {events : List Event}
    (hentered : (Event.returns events).map Prod.fst = Event.enteredPaths events)
    (hentries : entries.map some
      = (Event.returns events).map fun (path, ending) => root.entryAt? path ending) :
    entries.map (some ∘ TraceEntry.name)
      = (Event.enteredPaths events).map (Option.map Prod.snd ∘ root.stepAt?) :=
  calc entries.map (some ∘ TraceEntry.name)
      = (entries.map some).map (Option.map TraceEntry.name) := by simp
    _ = (Event.returns events).map fun (path, _) => (root.stepAt? path).map Prod.snd := by
        rw [hentries, List.map_map]
        exact List.map_congr_left fun (path, ending) _ => root.map_name_entryAt? path ending
    _ = (Event.enteredPaths events).map (Option.map Prod.snd ∘ root.stepAt?) := by
        rw [← hentered, List.map_map]
        rfl

/-- Where no handler is entered and the trace stays, nothing has to be shown. -/
theorem Traced.of_eq {before after : Call} {events : List Event}
    (hreturns : Event.returns events = []) (hentered : Event.enteredPaths events = [])
    (htrace : after.outcome.trace = before.outcome.trace) : Traced root before events after := by
  refine ⟨by rw [hreturns, hentered]; rfl, [], ?_, by rw [hreturns]; rfl⟩
  rw [htrace, List.append_nil]

theorem Traced.append {before mid after : Call} {events later : List Event}
    (h : Traced root before events mid) (hlater : Traced root mid later after) :
    Traced root before (events ++ later) after := by
  obtain ⟨hentered, entries, htrace, hentries⟩ := h
  obtain ⟨hentered', entries', htrace', hentries'⟩ := hlater
  refine ⟨?_, entries ++ entries', ?_, ?_⟩
  · rw [Event.returns_append, Event.enteredPaths_append, List.map_append, hentered, hentered']
  · rw [htrace', htrace, List.append_assoc]
  · rw [Event.returns_append, List.map_append, List.map_append, hentries, hentries']

/-- One step leaves one entry. -/
theorem Traced.of_step {path : Path} {kind : Kind} {step : String} {handler : Handler ω}
    {before mid after : Call} {ending : HandlerEnd}
    (hat : root.at? path = some (.leaf kind step handler)) (call : Call)
    (htrace : after.outcome.trace = before.outcome.trace
      ++ [.ofEnding (Scope.leafKind kind (root.inheritedAt .step path)) step ending]) :
    Traced root before [.entered path call, .returned path ending mid] after := by
  refine ⟨rfl, _, htrace, ?_⟩
  have hentry : root.entryAt? path ending = some (.ofEnding
      (Scope.leafKind kind (root.inheritedAt .step path)) step ending) := by
    rw [Instruction.entryAt?, Instruction.stepAt?_of_at? hat]
    rfl
  exact congrArg (fun entry => [entry]) hentry.symm

/-- Everything that is carried out is traced, if handlers leave the trace alone. -/
theorem threads_traced (htraces : setting.config.tracesSteps = true)
    (hspares : ∀ leaf ∈ root.leaves, leaf.2.2.Spares Outcome.trace) :
    Threads setting root (Traced root) := by
  have hmid : ∀ {path kind step handler before ending mid},
      root.at? path = some (.leaf kind step handler) →
      handler.Leads (setting.tracedCall step before) ending mid →
        mid.outcome.trace = before.outcome.trace ++ [.step step] := by
    intro path kind step handler before ending mid hat hhandler
    have hspared := Instruction.view_of_leads hspares hat hhandler
    exact hspared.trans (Setting.trace_tracedCall htraces step before)
  constructor
  case nil => exact fun call => .of_eq rfl rfl rfl
  case append => exact Traced.append
  case passing =>
    intro event hevent call
    cases event with
    | entered _ _ => exact hevent.elim
    | returned _ _ _ => exact hevent.elim
    | _ => exact .of_eq rfl rfl rfl
  case timed => exact fun call label timing => .of_eq rfl rfl rfl
  case settled =>
    intro step fault before after events result hsettled
    cases hsettled with
    | raised hauthoring => exact .of_eq rfl rfl rfl
    | recorded hauthoring => exact .of_eq rfl rfl rfl
  case answered =>
    intro path kind step handler before mid after ending answer result hat hhandler hanswer haccepts
    obtain rfl := HandlerEnd.eq_answered hanswer
    exact .of_step hat _ (haccepts.trace_eq htraces (hmid hat hhandler))
  case faulted =>
    intro path kind step handler before mid ending fault hat hhandler hfault
    refine .of_step hat _ ((hmid hat hhandler).trans ?_)
    -- the entry of a step that answers nothing is a plain one, whatever the kind of the step
    have hentry : ∀ kind, TraceEntry.ofEnding kind step ending = .step step := by
      intro kind
      cases ending with
      | answered answer => exact nomatch hfault
      | faulted fault => cases kind <;> rfl
      | panicked panic => cases kind <;> rfl
    rw [hentry]

/-! ## Whole calls -/

namespace Setting

/-- The trace of a call in development mode, whatever the tree of instructions and the backends
    are, if handlers leave the traces of their own outcomes alone. Its entries are those of the
    handlers that were entered, one for each and in the same order: the entry of a step that is run
    as an `operation` step holds the trace of the successful outcome that it answered with, that of
    an `operations` step the traces of its outcomes if none of them has failed, and all other
    entries are plain. An entry stays as it is when the work on a further instruction begins,
    whatever comes of that. -/
theorem trace_shows_entered_steps (setting : Setting ω)
    (instructions : List (Instruction (Handler ω)))
    (hmode : setting.config.mode = .development)
    (hspares : ∀ leaf ∈ Instruction.leavesAll instructions, leaf.2.2.Spares Outcome.trace) :
    let root := Instruction.whole instructions
    (∀ arguments world outcome, (setting.perform instructions arguments world).1 = .ok outcome →
        let events := setting.transcript instructions arguments world
        (Event.returns events).map Prod.fst = Event.enteredPaths events
          ∧ outcome.trace.map (some ∘ TraceEntry.name)
            = (Event.enteredPaths events).map (Option.map Prod.snd ∘ root.stepAt?)
          ∧ outcome.trace.map some
            = (Event.returns events).map fun (path, ending) => root.entryAt? path ending)
      ∧ ∀ path instruction, root.at? path = some instruction → ∀ state : State ω,
        let after := (setting.walk instruction (root.inheritedAt .step path) state).2
        state.call.outcome.trace <+: after.call.outcome.trace := by
  intro root
  have htraces := tracesSteps_iff.2 hmode
  have hthreads : Threads setting root (Traced root) := threads_traced htraces hspares
  constructor
  · intro arguments world outcome hperform events
    obtain ⟨htranscript, -, rfl⟩ := of_perform_eq_ok hperform
    have hcourse := setting.takes_followCall instructions arguments world
    rw [← htranscript] at hcourse
    obtain ⟨hentered, entries, htrace, hentries⟩ := hcourse.threads hthreads
    have hentries' : (setting.followCall instructions arguments world).2.call.outcome.trace
        = entries := htrace
    rw [hentries']
    exact ⟨hentered, Traced.map_name hentered hentries, hentries⟩
  · intro path instruction hat state after
    obtain ⟨events, -, entries, htrace, -⟩ := hthreads.of_walk hat state
    exact ⟨entries, htrace.symm⟩

/-- A successful call, a step that faults, and a list of calls that are successful, in turn. -/
def callsInTurn : List (Instruction (Handler Unit)) :=
  [.leaf .operation "load" fun state => (.answered (.outcome { trace := [.step "read"] }), state),
    .block .success
      [.leaf .step "parse" fun state => (.panicked .other, state),
        .block .operations
          [.leaf .step "save" fun state =>
            (.answered (.outcomes [{ trace := [.step "write"] }, {}]), state)]]]

/-- The traces of the calls are nested, and the step that faulted has a plain entry. -/
theorem trace_nests_calls_in_turn :
    direct.config.mode = .development
      ∧ (∀ leaf ∈ Instruction.leavesAll callsInTurn, leaf.2.2.Spares Outcome.trace)
      ∧ ∃ outcome, (direct.perform callsInTurn {} ()).1 = .ok outcome
        ∧ outcome.trace.map some = [some (.operation "load" [.step "read"]), some (.step "parse"),
          some (.operations "save" [[.step "write"], []])] := by
  have hspares : ∀ leaf ∈ Instruction.leavesAll callsInTurn, leaf.2.2.Spares Outcome.trace := by
    intro leaf hleaf
    simp only [callsInTurn, Instruction.leavesAll, Instruction.leaves, List.cons_append,
      List.nil_append, List.append_nil, List.mem_cons, List.not_mem_nil, or_false] at hleaf
    rcases hleaf with rfl | rfl | rfl <;> exact fun _ => rfl
  obtain ⟨hcalls, -⟩ := trace_shows_entered_steps direct callsInTurn rfl hspares
  obtain ⟨-, -, hentries⟩ := hcalls {} () _ rfl
  exact ⟨rfl, hspares, _, rfl, hentries⟩

end Setting

end OperationPipeline
