import OperationPipeline.Proofs.Order

set_option autoImplicit false

/-! # Step blocks

A `step` block hands the kind of plain steps on from the scope around it, and its body stops where a
list of the default rule does. So in a list of that rule its members might as well stand in the
place of the block. The one exception is a block without members: the list looks at the call after
the block, although nothing was done in it.

Main statement: `stepBlock_transparent`. It rests on how a list is walked in two parts
(`walkAll_append`). -/

namespace OperationPipeline

variable {ω : Type}

namespace Setting

variable (setting : Setting ω)

/-! ## Lists in two parts -/

/-- The later part is carried out in states only in which the list does not stop. -/
theorem goOn_congr {scope : Scope} {later later' : State ω → Except EngineError Unit × State ω}
    (h : ∀ state, stopsAt scope state = false → later state = later' state)
    (earlier : Except EngineError Unit × State ω) :
    goOn scope later earlier = goOn scope later' earlier := by
  obtain ⟨result, state⟩ := earlier
  cases result with
  | error error => rfl
  | ok u =>
    cases hstops : stopsAt scope state with
    | true => rw [goOn_of_stops hstops, goOn_of_stops hstops]
    | false => rw [goOn_of_not_stops hstops, goOn_of_not_stops hstops, h state hstops]

theorem walkAll_cons_eq_goOn (instruction : Instruction (Handler ω))
    (rest : List (Instruction (Handler ω))) (scope : Scope) (state : State ω) :
    setting.walkAll (instruction :: rest) scope state
      = goOn scope (setting.walkAll rest scope) (setting.walk instruction scope.leaf state) := rfl

/-- A list is walked by walking its first part and going on with its second one. Only after an
    instruction does a list stop, so the first part must not be empty where it would. -/
theorem walkAll_append {first : List (Instruction (Handler ω))} {scope : Scope} {state : State ω}
    (h : first ≠ [] ∨ stopsAt scope state = false) (second : List (Instruction (Handler ω))) :
    setting.walkAll (first ++ second) scope state
      = goOn scope (setting.walkAll second scope) (setting.walkAll first scope state) := by
  induction first generalizing state with
  | nil =>
    have hstops : stopsAt scope state = false := h.resolve_left fun hnil => hnil rfl
    rw [List.nil_append, walkAll_nil, goOn_of_not_stops hstops]
  | cons instruction rest ih =>
    rw [List.cons_append, walkAll_cons_eq_goOn, walkAll_cons_eq_goOn]
    rcases setting.walk instruction scope.leaf state with ⟨result, mid⟩
    cases result with
    | error error => rfl
    | ok u =>
      cases hstops : stopsAt scope mid with
      | true => rw [goOn_of_stops hstops, goOn_of_stops hstops, goOn_of_stops hstops]
      | false => rw [goOn_of_not_stops hstops, goOn_of_not_stops hstops, ih (Or.inr hstops)]

/-! ## Step blocks -/

/-- The members of a `step` block at the head of a list might as well stand in its place. -/
theorem walkAll_stepBlock_cons {body : List (Instruction (Handler ω))} {kind : Kind}
    {state : State ω} (h : body ≠ [] ∨ stopsAt ⟨.finishedOrFailed, kind⟩ state = false)
    (post : List (Instruction (Handler ω))) :
    setting.walkAll (.block .step body :: post) ⟨.finishedOrFailed, kind⟩ state
      = setting.walkAll (body ++ post) ⟨.finishedOrFailed, kind⟩ state := by
  rw [setting.walkAll_append h post]
  rfl

theorem walkAll_stepBlock (pre : List (Instruction (Handler ω)))
    {body : List (Instruction (Handler ω))} (post : List (Instruction (Handler ω))) {kind : Kind}
    {state : State ω} (h : body ≠ [] ∨ stopsAt ⟨.finishedOrFailed, kind⟩ state = false) :
    setting.walkAll (pre ++ .block .step body :: post) ⟨.finishedOrFailed, kind⟩ state
      = setting.walkAll (pre ++ (body ++ post)) ⟨.finishedOrFailed, kind⟩ state := by
  cases pre with
  | nil => exact setting.walkAll_stepBlock_cons h post
  | cons instruction rest =>
    have hcons : instruction :: rest ≠ [] := List.cons_ne_nil _ _
    rw [setting.walkAll_append (Or.inl hcons), setting.walkAll_append (Or.inl hcons)]
    exact goOn_congr (fun mid hmid => setting.walkAll_stepBlock_cons (Or.inr hmid) post) _

end Setting

/-! ## Marked steps

What happens during the walks of two different lists can be compared if each step keeps a mark,
under which the entries and returns of its handler are logged. -/

theorem Instruction.label_map {η μ : Type} (f : η → μ) (instruction : Instruction η) :
    (instruction.map f).label = instruction.label := by
  cases instruction with
  | leaf kind name handler => rfl
  | block kind body =>
    rw [Instruction.map, label, label, leavesAll_mapAll, List.map_map]
    rfl

/-- A handler and the mark of its step. -/
abbrev Marked (ω : Type) := Path × Handler ω

/-- The handler with its entries and returns logged under the mark. -/
def Marked.watched (marked : Marked ω) : Handler (Logged ω) := marked.2.logged marked.1

namespace Setting

variable (setting : Setting ω)

/-- Walks marked instructions. -/
def walkMarked (body : List (Instruction (Marked ω))) (scope : Scope) (state : State ω) :
    Except EngineError Unit × State ω :=
  setting.walkAll (Instruction.mapAll Prod.snd body) scope state

/-- Walks marked instructions and logs what passes between the engine, the handlers and the
    collaborators. -/
def watchMarked (body : List (Instruction (Marked ω))) (scope : Scope)
    (state : State (Logged ω)) : Except EngineError Unit × State (Logged ω) :=
  setting.logged.walkAll (Instruction.mapAll Marked.watched body) scope state

mutual

theorem logs_walk_marked : (instruction : Instruction (Marked ω)) → (inherited : Kind) →
    Logs (setting.logged.walk (instruction.map Marked.watched) inherited)
      (setting.walk (instruction.map Prod.snd) inherited)
  | .leaf kind name marked, inherited =>
    logs_around setting kind name
      (logs_walkLeaf setting marked.1 (Scope.leafKind kind inherited) name marked.2)
  | .block kind body, inherited => by
    have hwatched := Instruction.label_map Marked.watched (.block kind body)
    have hplain := Instruction.label_map Prod.snd (.block kind body)
    rw [Instruction.map] at hwatched hplain
    rw [Instruction.map, Instruction.map, walk_block, walk_block, hwatched, hplain]
    exact logs_around setting kind _ (logs_watchMarked body (Scope.inside kind inherited))
termination_by structural instruction => instruction

/-- Whoever forgets the log of a watched walk sees the walk. -/
theorem logs_watchMarked : (body : List (Instruction (Marked ω))) → (scope : Scope) →
    Logs (setting.watchMarked body scope) (setting.walkMarked body scope)
  | [], _ => fun _ => rfl
  | instruction :: rest, scope => by
    intro state
    rw [walkMarked, watchMarked, Instruction.mapAll, Instruction.mapAll, walkAll_cons, walkAll_cons,
      ← logs_walk_marked instruction scope.leaf state]
    rcases setting.logged.walk _ scope.leaf state with ⟨result, mid⟩
    cases result with
    | error error => rfl
    | ok u =>
      dsimp only
      rw [show stopsAt scope mid.plain = stopsAt scope mid from rfl]
      split
      · rfl
      · exact logs_watchMarked rest scope mid
termination_by structural body => body

end

/-- A `step` block is transparent where the default rule applies. Let the members of a block stand
    in its place, in a list of any instructions before and after it, whatever kind plain steps take
    there. If the block has members, or if the call is neither finished nor failed when the list is
    entered, the two walks end with the same result, in the same state of the call and of the world;
    and if every step carries a mark, the same is logged during both: handlers are entered and
    return under the same marks, in the same order and in the same states, the backends are called
    and answered in the same way, and the same faults are recorded and reported. -/
theorem stepBlock_transparent (setting : Setting ω) (pre body post : List (Instruction (Marked ω)))
    (kind : Kind) (state : State (Logged ω))
    (h : body ≠ [] ∨ state.call.finished = false ∧ state.call.outcome.isFailure = false) :
    let scope : Scope := ⟨.finishedOrFailed, kind⟩
    let nested := pre ++ [.block .step body] ++ post
    let flat := pre ++ body ++ post
    setting.walkMarked nested scope state.plain = setting.walkMarked flat scope state.plain
      ∧ setting.watchMarked nested scope state = setting.watchMarked flat scope state
      ∧ ((setting.watchMarked nested scope state).1,
          (setting.watchMarked nested scope state).2.plain)
        = setting.walkMarked nested scope state.plain := by
  intro scope nested flat
  have hmapped : ∀ {μ : Type} (f : Marked ω → μ), Instruction.mapAll f body ≠ []
      ∨ scope.rule.stops state.call.finished state.call.outcome.isFailure = false := by
    intro μ f
    refine h.imp (fun hbody => ?_) fun ⟨hunfinished, hsuccess⟩ => ?_
    · rwa [Instruction.mapAll_eq_map, ne_eq, List.map_eq_nil_iff]
    · rw [hunfinished, hsuccess, StopRule.stops_running]
  have hnested : ∀ {μ : Type} (f : Marked ω → μ), Instruction.mapAll f nested
      = Instruction.mapAll f pre ++ .block .step (Instruction.mapAll f body)
        :: Instruction.mapAll f post := by
    intro μ f
    simp only [nested, Instruction.mapAll_eq_map, List.map_append, List.map_cons,
      Instruction.map, List.append_assoc, List.cons_append, List.nil_append]
  have hflat : ∀ {μ : Type} (f : Marked ω → μ), Instruction.mapAll f flat
      = Instruction.mapAll f pre ++ (Instruction.mapAll f body ++ Instruction.mapAll f post) := by
    intro μ f
    simp only [flat, Instruction.mapAll_eq_map, List.map_append, List.append_assoc]
  refine ⟨?_, ?_, logs_watchMarked setting nested scope state⟩
  · rw [walkMarked, walkMarked, hnested, hflat]
    exact setting.walkAll_stepBlock _ _ (hmapped Prod.snd)
  · rw [watchMarked, watchMarked, hnested, hflat]
    exact setting.logged.walkAll_stepBlock _ _ (hmapped Marked.watched)

/-- A step that does nothing, marked by a number. -/
def markedStep (mark : Nat) : Instruction (Marked Unit) :=
  .leaf .step "step" ([mark], fun state => (.answered .nothing, state))

/-- A state in which the outcome is a failure before anything is run. -/
def failedAtStart : State (Logged Unit) :=
  ⟨(Call.start {}).mapOutcome (·.addError "name" (.string "missing")), ⟨(), []⟩⟩

/-- After a failure one step is run in either case: it stops the body of the block, and the list
    around it stops as well. -/
theorem enters_one_member_after_failure :
    let body := [markedStep 1, markedStep 2]
    let nested := [] ++ [.block .step body] ++ [markedStep 3]
    body ≠ [] ∧ failedAtStart.call.outcome.isFailure = true
      ∧ Event.enteredPaths
        (direct.watchMarked nested ⟨.finishedOrFailed, .step⟩ failedAtStart).2.world.log
          = [[1]] := by
  intro body nested
  have hbody : body ≠ [] := List.cons_ne_nil _ _
  obtain ⟨-, hwatched, -⟩ :=
    stepBlock_transparent direct [] body [markedStep 3] .step failedAtStart (Or.inl hbody)
  refine ⟨hbody, rfl, ?_⟩
  rw [hwatched]
  rfl

/-- An empty block is not transparent after a failure: it stops the list, and without it the list
    goes on. -/
example :
    Event.enteredPaths (direct.watchMarked [.block .step [], markedStep 1]
        ⟨.finishedOrFailed, .step⟩ failedAtStart).2.world.log = []
      ∧ Event.enteredPaths (direct.watchMarked [markedStep 1]
        ⟨.finishedOrFailed, .step⟩ failedAtStart).2.world.log = [[1]] := ⟨rfl, rfl⟩

end Setting

end OperationPipeline
