import OperationPipeline.Proofs.ErrorLists
import OperationPipeline.Proofs.Provenance

set_option autoImplicit false

/-! # Taking over failures

Taking over the failures of another outcome joins two lists of entries, key by key: the errors
without repetitions, the exceptions as they are (`Outcome.mergeFailures_eq`). Keys keep the order of
their first mention. Two lists with the same keys in the same order and the same values under them
are equal, so each law of taking over is a law of joining two values (`Entries.joinAll_assoc`,
`Entries.joinAll_of_nil`). -/

namespace OperationPipeline

/-! ## Entries that are joined -/

namespace Entries

variable {α : Type}

theorem at?_eq_none_iff {key : String} {entries : Entries α} :
    entries.at? key = none ↔ key ∉ entries.keys := by
  induction entries with
  | nil => simp [keys]
  | cons entry rest ih =>
    obtain ⟨k, v⟩ := entry
    rw [keys] at ih
    by_cases hk : k = key
    · simp [at?, keys, hk]
    · have hk' : ¬ key = k := fun h => hk h.symm
      simp [at?, keys, hk, hk', ih]

/-- Entries are equal if their keys are, in order, and what is under each key. -/
theorem eq_of_keys_eq {first second : Entries α} (hnodup : first.keys.Nodup)
    (hkeys : first.keys = second.keys) (hat : ∀ key, first.at? key = second.at? key) :
    first = second := by
  induction first generalizing second with
  | nil => exact (List.map_eq_nil_iff.1 hkeys.symm).symm
  | cons entry rest ih =>
    obtain ⟨k, v⟩ := entry
    cases second with
    | nil => exact nomatch hkeys
    | cons entry' rest' =>
      obtain ⟨k', v'⟩ := entry'
      obtain ⟨rfl, hrest⟩ : k = k' ∧ keys rest = keys rest' := List.cons.inj hkeys
      obtain ⟨hnew, hnodup'⟩ := List.nodup_cons.1 hnodup
      have hvalue : v = v' := by simpa [at?] using hat k
      have hat' : ∀ key, at? key rest = at? key rest' := by
        intro key
        by_cases hk : k = key
        · subst hk
          rw [at?_eq_none_iff.2 hnew, at?_eq_none_iff.2 (hrest ▸ hnew)]
        · simpa [at?, hk] using hat key
      rw [hvalue, ih hnodup' hrest hat']

variable (join : List α → List α → List α)

/-- The entries after the values of `added` were joined to those under the same keys, in turn. -/
def joinAll (entries added : Entries (List α)) : Entries (List α) :=
  added.foldl (fun acc (key, values) => acc.put key (join ((acc.at? key).getD []) values)) entries

theorem joinAll_cons (entries : Entries (List α)) (key : String) (values : List α)
    (rest : Entries (List α)) :
    entries.joinAll join ((key, values) :: rest)
      = (entries.put key (join ((entries.at? key).getD []) values)).joinAll join rest := rfl

/-- Appending to what is under a key: the values that are added there follow those of before. -/
theorem getD_at?_joinAll_append (entries added : Entries (List α)) (key : String) :
    ((entries.joinAll (· ++ ·) added).at? key).getD []
      = (entries.at? key).getD [] ++ (added.filter (·.1 == key)).flatMap (·.2) := by
  induction added generalizing entries with
  | nil => exact (List.append_nil _).symm
  | cons entry rest ih =>
    obtain ⟨k, v⟩ := entry
    rw [joinAll_cons, ih, at?_put]
    by_cases hk : k = key
    · subst hk
      simp
    · simp [hk]

theorem nodup_keys_joinAll {entries : Entries (List α)} (h : entries.keys.Nodup)
    (added : Entries (List α)) : (entries.joinAll join added).keys.Nodup := by
  induction added generalizing entries with
  | nil => exact h
  | cons entry rest ih => exact ih (nodup_keys_put _ _ h)

theorem at?_joinAll {added : Entries (List α)} (h : added.keys.Nodup)
    (entries : Entries (List α)) (key : String) :
    (entries.joinAll join added).at? key = match added.at? key with
      | none => entries.at? key
      | some values => some (join ((entries.at? key).getD []) values) := by
  induction added generalizing entries with
  | nil => rfl
  | cons entry rest ih =>
    obtain ⟨k, v⟩ := entry
    obtain ⟨hnew, hrest⟩ := List.nodup_cons.1 h
    rw [joinAll_cons, ih hrest, at?_put]
    by_cases hk : k = key
    · subst hk
      have hnone : at? k rest = none := at?_eq_none_iff.2 hnew
      simp [at?, hnone]
    · simp [at?, hk]

/-- New keys come last, in the order in which they are added. -/
theorem keys_joinAll {added : Entries (List α)} (h : added.keys.Nodup)
    (entries : Entries (List α)) :
    (entries.joinAll join added).keys
      = entries.keys ++ added.keys.filter fun key => key ∉ entries.keys := by
  induction added generalizing entries with
  | nil => exact (List.append_nil _).symm
  | cons entry rest ih =>
    obtain ⟨k, v⟩ := entry
    obtain ⟨hnew, hrest⟩ := List.nodup_cons.1 h
    have hkeys : keys ((k, v) :: rest) = k :: keys rest := rfl
    rw [joinAll_cons, ih hrest, keys_put, hkeys]
    by_cases hk : k ∈ entries.keys
    · simp [hk]
    · have hfilter : (keys rest).filter (fun key => key ∉ entries.keys ++ [k])
          = (keys rest).filter fun key => key ∉ entries.keys := by
        refine List.filter_congr fun key hkey => ?_
        have hne : key ≠ k := fun hsame => hnew (hsame ▸ hkey)
        simp [hne]
      rw [if_neg hk, hfilter, List.filter_cons_of_pos (by simpa using hk), List.append_assoc]
      rfl

theorem joinAll_eq_nil_iff {entries added : Entries (List α)} (h : added.keys.Nodup) :
    entries.joinAll join added = [] ↔ entries = [] ∧ added = [] := by
  have hkeys : ∀ some : Entries (List α), some = [] ↔ some.keys = [] := fun _ =>
    List.map_eq_nil_iff.symm
  rw [hkeys, hkeys entries, hkeys added, keys_joinAll join h, List.append_eq_nil_iff]
  constructor
  · rintro ⟨hentries, hadded⟩
    rw [List.filter_eq_nil_iff] at hadded
    refine ⟨hentries, List.eq_nil_iff_forall_not_mem.2 fun key hkey => ?_⟩
    have hnew : key ∉ entries.keys := by
      rw [hentries]
      exact List.not_mem_nil
    exact hadded key hkey (decide_eq_true hnew)
  · rintro ⟨hentries, hadded⟩
    rw [hadded]
    exact ⟨hentries, rfl⟩

variable {join}

/-- What is joined to nothing stays as it is. -/
theorem joinAll_of_nil {added : Entries (List α)} (h : added.keys.Nodup)
    (hjoin : ∀ entry ∈ added, join [] entry.2 = entry.2) :
    joinAll join [] added = added := by
  have hempty : (keys ([] : Entries (List α))).Nodup := List.nodup_nil
  refine eq_of_keys_eq (nodup_keys_joinAll join hempty added) ?_ fun key => ?_
  · rw [keys_joinAll join h]
    simp [keys]
  · rw [at?_joinAll join h]
    cases hat : added.at? key with
    | none => rfl
    | some values => exact congrArg some (hjoin _ (mem_of_at?_eq_some hat))

theorem joinAll_assoc {first second third : Entries (List α)} (hfirst : first.keys.Nodup)
    (hsecond : second.keys.Nodup) (hthird : third.keys.Nodup)
    (hassoc : ∀ x y z, join x (join y z) = join (join x y) z)
    (hjoin : ∀ entry ∈ third, join [] entry.2 = entry.2) :
    first.joinAll join (second.joinAll join third)
      = (first.joinAll join second).joinAll join third := by
  have hlater := nodup_keys_joinAll join hsecond third
  refine eq_of_keys_eq (nodup_keys_joinAll join hfirst _) ?_ fun key => ?_
  · rw [keys_joinAll join hlater, keys_joinAll join hthird, keys_joinAll join hthird,
      keys_joinAll join hsecond, List.filter_append, List.filter_filter, List.append_assoc]
    refine congrArg _ (congrArg _ (List.filter_congr fun key _ => ?_))
    by_cases hkey : key ∈ first.keys <;> simp [hkey]
  · rw [at?_joinAll join hlater, at?_joinAll join hthird, at?_joinAll join hthird,
      at?_joinAll join hsecond]
    cases hat : third.at? key with
    | none => rfl
    | some values =>
      have hvalues : join [] values = values := hjoin _ (mem_of_at?_eq_some hat)
      cases second.at? key with
      | none => exact congrArg some (congrArg _ hvalues)
      | some others => exact congrArg some (hassoc _ _ _)

/-- Joining a second time adds no key. -/
theorem keys_joinAll_twice {added : Entries (List α)} (h : added.keys.Nodup)
    (entries : Entries (List α)) :
    ((entries.joinAll join added).joinAll join added).keys = (entries.joinAll join added).keys := by
  rw [keys_joinAll join h (entries.joinAll join added), keys_joinAll join h entries,
    List.append_right_eq_self, List.filter_eq_nil_iff]
  intro key hkey
  by_cases hold : key ∈ entries.keys <;> simp [hold, hkey]

theorem joinAll_twice {entries added : Entries (List α)} (hentries : entries.keys.Nodup)
    (hadded : added.keys.Nodup) (hjoin : ∀ x y, join (join x y) y = join x y) :
    (entries.joinAll join added).joinAll join added = entries.joinAll join added := by
  refine eq_of_keys_eq (nodup_keys_joinAll join (nodup_keys_joinAll join hentries added) added)
    (keys_joinAll_twice hadded entries) fun key => ?_
  rw [at?_joinAll join hadded, at?_joinAll join hadded]
  cases added.at? key with
  | none => rfl
  | some values => exact congrArg some (hjoin _ _)

end Entries

/-! ## Messages that are joined -/

namespace Messages

/-- What stays of a list after another one in which nothing is repeated. -/
theorem distinct_append (first second : List Json) :
    distinct (first ++ second) = distinct first
      ++ (distinct second).filter fun message => !first.any (·.same message) := by
  induction first with
  | nil =>
    have hnone : ∀ message ∈ distinct second,
        (!([] : List Json).any (·.same message)) = true := fun _ _ => rfl
    exact (List.filter_eq_self.2 hnone).symm
  | cons head rest ih =>
    rw [List.cons_append, distinct, distinct, ih, List.filter_append, List.filter_filter,
      List.cons_append]
    refine congrArg _ (congrArg _ (List.filter_congr fun message _ => ?_))
    rw [List.any_cons, Bool.not_or]

/-- Every message of a list is still there, up to equality, without the repetitions. -/
theorem any_distinct (messages : List Json) (message : Json) :
    (distinct messages).any (·.same message) = messages.any (·.same message) := by
  induction messages with
  | nil => rfl
  | cons head rest ih =>
    rw [distinct, List.any_cons, List.any_cons, ← ih, List.any_filter]
    cases hhead : head.same message with
    | true => rfl
    | false =>
      rw [Bool.false_or, Bool.false_or]
      -- what is equal to the head cannot be equal to the message
      refine congrArg (List.any (distinct rest)) (funext fun other => ?_)
      cases hother : other.same message with
      | false => rw [Bool.and_false]
      | true =>
        cases hsame : head.same other with
        | false => rfl
        | true =>
          have htrans := Json.same_trans _ _ _ hsame hother
          rw [hhead] at htrans
          exact absurd htrans Bool.false_ne_true

/-- Two lists of messages as one, without repetitions. -/
def joined (first second : List Json) : List Json :=
  distinct (first ++ second)

/-- Dropping repetitions of what comes first makes no difference. -/
theorem joined_distinct (first second : List Json) :
    joined (distinct first) second = joined first second := by
  rw [joined, distinct_append, distinct_of_apart (apart_distinct _), joined, distinct_append]
  simp only [any_distinct]

theorem joined_assoc (first second third : List Json) :
    joined first (joined second third) = joined (joined first second) third := by
  have hright : distinct (first ++ distinct (second ++ third))
      = distinct (first ++ (second ++ third)) := by
    rw [distinct_append, distinct_of_apart (apart_distinct _), ← distinct_append]
  calc joined first (joined second third)
      = joined (first ++ second) third := by
        rw [joined, joined, hright, ← List.append_assoc, joined]
    _ = joined (joined first second) third := (joined_distinct (first ++ second) third).symm

theorem joined_nil {messages : List Json} (h : Apart messages) : joined [] messages = messages :=
  distinct_of_apart h

/-- A list whose messages are all there adds nothing. -/
theorem joined_twice (first second : List Json) :
    joined (joined first second) second = joined first second := by
  have hself : joined second second = distinct second := by
    rw [joined, distinct_append, List.append_right_eq_self, List.filter_eq_nil_iff]
    intro message hmessage
    have hany : second.any (·.same message) = true :=
      List.any_eq_true.2 ⟨message, mem_of_mem_distinct hmessage, message.same_refl⟩
    simp [hany]
  rw [← joined_assoc, hself, joined, joined, distinct_append,
    distinct_of_apart (apart_distinct second), ← distinct_append]

end Messages

namespace Outcome

/-! ## What taking over leaves alone -/

section Views

variable {α : Type} (view : Outcome → α)

theorem view_addErrors (h : ∀ outcome errors, view { outcome with errors } = view outcome)
    (outcome : Outcome) (messages : List (String × Json)) :
    view (outcome.addErrors messages) = view outcome := by
  induction messages generalizing outcome with
  | nil => rfl
  | cons first rest ih =>
    refine (ih (outcome.addError first.1 first.2)).trans ?_
    rw [addError]
    split
    · rfl
    · exact h outcome _

theorem view_addExceptions
    (h : ∀ outcome exceptions, view { outcome with exceptions } = view outcome)
    (outcome : Outcome) (exceptions : List (String × List String)) :
    view (outcome.addExceptions exceptions) = view outcome := by
  induction exceptions generalizing outcome with
  | nil => rfl
  | cons first rest ih => exact (ih (outcome.addExceptionTexts first.1 first.2)).trans (h outcome _)

/-- What does not depend on failures does not change when failures are taken over. -/
theorem view_mergeFailures
    (h : ∀ outcome errors exceptions, view { outcome with errors, exceptions } = view outcome)
    (outcome other : Outcome) : view (outcome.mergeFailures other) = view outcome := by
  have hexceptions := view_addExceptions view
    (fun outcome exceptions => h outcome outcome.errors exceptions)
    (outcome.addErrorLists other.errors) other.exceptions
  have herrors : view (outcome.addErrorLists other.errors) = view outcome :=
    view_addErrors view (fun outcome errors => h outcome errors outcome.exceptions) outcome _
  exact hexceptions.trans herrors

theorem view_foldl_mergeFailures
    (h : ∀ outcome errors exceptions, view { outcome with errors, exceptions } = view outcome)
    (outcome : Outcome) (others : List Outcome) :
    view (others.foldl mergeFailures outcome) = view outcome := by
  induction others generalizing outcome with
  | nil => rfl
  | cons other rest ih =>
    exact (ih (outcome.mergeFailures other)).trans (view_mergeFailures view h outcome other)

end Views

/-! ## Failures that are taken over -/

/-- The errors and exceptions of an outcome, and nothing else of it. -/
def onlyFailures (outcome : Outcome) : Outcome :=
  { errors := outcome.errors, exceptions := outcome.exceptions }

theorem onlyFailures_eq_iff {outcome other : Outcome} :
    outcome.onlyFailures = other.onlyFailures
      ↔ outcome.errors = other.errors ∧ outcome.exceptions = other.exceptions := by
  simp [onlyFailures]

theorem onlyFailures_addErrors (outcome : Outcome) (messages : List (String × Json)) :
    (outcome.addErrors messages).onlyFailures = outcome.onlyFailures.addErrors messages := by
  induction messages generalizing outcome with
  | nil => rfl
  | cons first rest ih =>
    have hfirst : (outcome.addError first.1 first.2).onlyFailures
        = outcome.onlyFailures.addError first.1 first.2 := by
      rw [addError, addError]
      split <;> rfl
    refine (ih (outcome.addError first.1 first.2)).trans ?_
    rw [hfirst]
    rfl

theorem onlyFailures_addExceptions (outcome : Outcome)
    (exceptions : List (String × List String)) :
    (outcome.addExceptions exceptions).onlyFailures
      = outcome.onlyFailures.addExceptions exceptions := by
  induction exceptions generalizing outcome with
  | nil => rfl
  | cons first rest ih => exact ih (outcome.addExceptionTexts first.1 first.2)

/-- Which failures there are afterwards depends on the failures before, and on nothing else. -/
theorem onlyFailures_mergeFailures (outcome other : Outcome) :
    (outcome.mergeFailures other).onlyFailures = outcome.onlyFailures.mergeFailures other := by
  rw [mergeFailures, mergeFailures, onlyFailures_addExceptions, addErrorLists,
    onlyFailures_addErrors]
  rfl

theorem onlyFailures_foldl_mergeFailures (outcome : Outcome) (others : List Outcome) :
    (others.foldl mergeFailures outcome).onlyFailures
      = others.foldl mergeFailures outcome.onlyFailures := by
  induction others generalizing outcome with
  | nil => rfl
  | cons other rest ih =>
    refine (ih (outcome.mergeFailures other)).trans ?_
    rw [onlyFailures_mergeFailures]
    rfl

/-- An outcome is tidy if its failures are. -/
theorem tidy_of_onlyFailures_eq {outcome other : Outcome} (hother : other.Tidy)
    (h : outcome.onlyFailures = other.onlyFailures) : outcome.Tidy := by
  have htidy : outcome.onlyFailures.Tidy := by
    rw [h]
    exact ⟨hother.explicit, hother.apart, hother.fields, hother.steps⟩
  exact ⟨htidy.explicit, htidy.apart, htidy.fields, htidy.steps⟩

theorem addError_array (outcome : Outcome) (field : String) {messages : List Json}
    (hne : messages ≠ []) (hsome : ∀ message ∈ messages, message.isNull = false) :
    outcome.addError field (.array messages) = { outcome with
      errors := outcome.errors.put field
        (Messages.joined ((outcome.errors.at? field).getD []) messages) } := by
  have hall : messages.filter (fun message => !message.isNull) = messages := by
    refine List.filter_eq_self.2 fun message hmessage => ?_
    rw [hsome message hmessage]
    rfl
  have habsorb : ∀ old, Messages.absorb old (.array messages) = Messages.joined old messages := by
    intro old
    rw [Messages.absorb, Messages.extended_array, hall, Messages.joined]
  have hfilled : ∀ old, Messages.joined old messages ≠ [] := by
    intro old hempty
    rw [Messages.joined, Messages.distinct_eq_nil_iff] at hempty
    exact hne (List.append_eq_nil_iff.1 hempty).2
  simp [addError, Json.isNull, habsorb, hfilled]

theorem addErrorLists_eq {errors : Entries (List Json)}
    (h : ∀ entry ∈ errors, entry.2 ≠ [] ∧ ∀ message ∈ entry.2, message.isNull = false)
    (outcome : Outcome) :
    outcome.addErrorLists errors
      = { outcome with errors := outcome.errors.joinAll Messages.joined errors } := by
  induction errors generalizing outcome with
  | nil => rfl
  | cons entry rest ih =>
    obtain ⟨hne, hsome⟩ := h entry List.mem_cons_self
    have hrest : outcome.addErrorLists (entry :: rest)
        = (outcome.addError entry.1 (.array entry.2)).addErrorLists rest := rfl
    rw [hrest, addError_array outcome entry.1 hne hsome,
      ih fun other hother => h other (List.mem_cons_of_mem _ hother)]
    rfl

theorem addExceptions_eq (outcome : Outcome) (exceptions : Entries (List String)) :
    outcome.addExceptions exceptions
      = { outcome with exceptions := outcome.exceptions.joinAll (· ++ ·) exceptions } := by
  induction exceptions generalizing outcome with
  | nil => rfl
  | cons entry rest ih => exact ih (outcome.addExceptionTexts entry.1 entry.2)

/-- The failures of another outcome are joined to one's own, and nothing else changes. -/
theorem mergeFailures_eq (outcome : Outcome) {other : Outcome} (h : other.Explicit) :
    outcome.mergeFailures other = { outcome with
      errors := outcome.errors.joinAll Messages.joined other.errors
      exceptions := outcome.exceptions.joinAll (· ++ ·) other.exceptions } := by
  rw [mergeFailures, addErrorLists_eq h, addExceptions_eq]

/-- An outcome without failures has those of the other one afterwards. -/
theorem onlyFailures_mergeFailures_of_success {outcome other : Outcome} (hother : other.Tidy)
    (hsuccess : outcome.isFailure = false) :
    (outcome.mergeFailures other).onlyFailures = other.onlyFailures := by
  obtain ⟨herrors, hexceptions⟩ : outcome.errors = [] ∧ outcome.exceptions = [] := by
    simpa [isFailure] using hsuccess
  rw [mergeFailures_eq outcome hother.explicit, onlyFailures, onlyFailures]
  dsimp only
  rw [herrors, hexceptions, Entries.joinAll_of_nil hother.fields,
    Entries.joinAll_of_nil hother.steps]
  · exact fun _ _ => rfl
  · exact fun entry hentry => Messages.joined_nil (hother.apart entry hentry)

theorem mergeFailures_assoc {first second third : Outcome} (hfirst : first.Tidy)
    (hsecond : second.Tidy) (hthird : third.Tidy) :
    first.mergeFailures (second.mergeFailures third)
      = (first.mergeFailures second).mergeFailures third := by
  have hmerged : (second.mergeFailures third).Tidy :=
    (extends_mergeFailures second third hsecond).1
  rw [mergeFailures_eq first hmerged.explicit, mergeFailures_eq second hthird.explicit,
    mergeFailures_eq _ hthird.explicit, mergeFailures_eq first hsecond.explicit]
  dsimp only
  rw [Entries.joinAll_assoc hfirst.fields hsecond.fields hthird.fields Messages.joined_assoc,
    Entries.joinAll_assoc hfirst.steps hsecond.steps hthird.steps]
  · exact fun _ _ _ => (List.append_assoc _ _ _).symm
  · exact fun _ _ => rfl
  · exact fun entry hentry => Messages.joined_nil (hthird.apart entry hentry)

/-- Errors that are taken over twice are there once. -/
theorem errors_mergeFailures_twice {outcome other : Outcome} (houtcome : outcome.Tidy)
    (hother : other.Tidy) :
    ((outcome.mergeFailures other).mergeFailures other).errors
      = (outcome.mergeFailures other).errors := by
  rw [mergeFailures_eq _ hother.explicit, mergeFailures_eq _ hother.explicit]
  exact Entries.joinAll_twice houtcome.fields hother.fields Messages.joined_twice

/-- Exceptions that are taken over follow those of the same step. -/
theorem at?_exceptions_mergeFailures (outcome : Outcome) {other : Outcome} (hother : other.Tidy)
    (key : String) :
    ((outcome.mergeFailures other).exceptions.at? key).getD []
      = (outcome.exceptions.at? key).getD [] ++ (other.exceptions.at? key).getD [] := by
  rw [mergeFailures_eq _ hother.explicit]
  dsimp only
  rw [Entries.at?_joinAll _ hother.steps]
  cases other.exceptions.at? key with
  | none => exact (List.append_nil _).symm
  | some texts => rfl

theorem keys_exceptions_mergeFailures_twice (outcome : Outcome) {other : Outcome}
    (hother : other.Tidy) :
    ((outcome.mergeFailures other).mergeFailures other).exceptions.keys
      = (outcome.mergeFailures other).exceptions.keys := by
  rw [mergeFailures_eq _ hother.explicit, mergeFailures_eq _ hother.explicit]
  exact Entries.keys_joinAll_twice hother.steps outcome.exceptions

theorem isFailure_mergeFailures_iff (outcome : Outcome) {other : Outcome} (hother : other.Tidy) :
    (outcome.mergeFailures other).isFailure = true
      ↔ outcome.isFailure = true ∨ other.isFailure = true := by
  have hempty : (outcome.mergeFailures other).isFailure = false
      ↔ outcome.isFailure = false ∧ other.isFailure = false := by
    rw [mergeFailures_eq _ hother.explicit]
    simp only [isFailure, Bool.or_eq_false_iff, Bool.not_eq_false', List.isEmpty_iff,
      Entries.joinAll_eq_nil_iff _ hother.fields, Entries.joinAll_eq_nil_iff _ hother.steps]
    exact and_and_and_comm
  cases houtcome : outcome.isFailure <;> cases hfailed : other.isFailure <;>
    simp_all

end Outcome

end OperationPipeline
