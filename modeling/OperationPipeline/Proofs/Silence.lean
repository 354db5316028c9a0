import OperationPipeline.Proofs.Merging

set_option autoImplicit false

/-! # Failures without a message

An outcome is a failure once there is a key in its errors or its exceptions. The fields of the
errors always have a message. The keys of the exceptions need not: whoever adds an empty list of
texts under a new key, or takes over such a list from another outcome, leaves a failure that has
nothing to say. What the exceptions are is told by the texts that the edits give
(`Outcome.exceptions_built`), and every failure has a message if and only if each key is given a
text (`Outcome.failures_speak_iff`). -/

namespace OperationPipeline

/-! ## Texts by key -/

namespace Entries

variable {α : Type}

theorem at?_of_mem {entries : Entries α} (hnodup : entries.keys.Nodup) {entry : String × α}
    (h : entry ∈ entries) : entries.at? entry.1 = some entry.2 := by
  induction entries with
  | nil => exact nomatch h
  | cons first rest ih =>
    obtain ⟨k, v⟩ := first
    obtain ⟨hnew, hrest⟩ := List.nodup_cons.1 hnodup
    rcases List.mem_cons.1 h with rfl | h
    · exact if_pos rfl
    · have hk : ¬ k = entry.1 := by
        intro hsame
        have hmem := mem_keys_of_mem h
        rw [← hsame] at hmem
        exact hnew hmem
      rw [at?, if_neg hk]
      exact ih hrest h

theorem mem_keys_joinAll (join : List α → List α → List α) (entries added : Entries (List α))
    (key : String) :
    key ∈ (entries.joinAll join added).keys ↔ key ∈ entries.keys ∨ key ∈ added.keys := by
  induction added generalizing entries with
  | nil => simp [joinAll, keys]
  | cons entry rest ih =>
    obtain ⟨k, v⟩ := entry
    have hkeys : keys ((k, v) :: rest) = k :: keys rest := rfl
    rw [joinAll_cons, ih, hkeys, keys_put, List.mem_cons]
    by_cases hk : k ∈ entries.keys
    · rw [if_pos hk]
      constructor
      · rintro (hold | hnew)
        · exact Or.inl hold
        · exact Or.inr (Or.inr hnew)
      · rintro (hold | rfl | hnew)
        · exact Or.inl hold
        · exact Or.inl hk
        · exact Or.inr hnew
    · rw [if_neg hk, List.mem_append, List.mem_singleton, or_assoc]

/-- No list of values is empty if and only if each key has been given a value. -/
theorem joined_ne_nil_iff (added : Entries (List α)) :
    (∀ entry ∈ joinAll (· ++ ·) [] added, entry.2 ≠ [])
      ↔ ∀ key ∈ added.keys, ∃ entry ∈ added, entry.1 = key ∧ entry.2 ≠ [] := by
  have hempty : (keys ([] : Entries (List α))).Nodup := List.nodup_nil
  have hnodup := nodup_keys_joinAll (· ++ ·) hempty added
  have hgiven : ∀ key, ((joinAll (· ++ ·) [] added).at? key).getD []
      = (added.filter (·.1 == key)).flatMap (·.2) :=
    getD_at?_joinAll_append [] added
  constructor
  · intro hfilled key hkey
    have hjoined : key ∈ (joinAll (· ++ ·) [] added).keys :=
      (mem_keys_joinAll _ _ _ key).2 (Or.inr hkey)
    obtain ⟨entry, hentry, rfl⟩ := List.mem_map.1 hjoined
    have hvalues := hgiven entry.1
    rw [at?_of_mem hnodup hentry, Option.getD_some] at hvalues
    obtain ⟨value, hvalue⟩ := List.exists_mem_of_ne_nil _ (hvalues ▸ hfilled entry hentry)
    obtain ⟨other, hother, hmem⟩ := List.mem_flatMap.1 hvalue
    obtain ⟨hadded, hsame⟩ := List.mem_filter.1 hother
    exact ⟨other, hadded, eq_of_beq hsame, List.ne_nil_of_mem hmem⟩
  · intro hspoken entry hentry hnone
    have hkey : entry.1 ∈ added.keys := by
      have hmem := (mem_keys_joinAll (· ++ ·) [] added entry.1).1 (mem_keys_of_mem hentry)
      exact hmem.resolve_left (List.not_mem_nil)
    obtain ⟨other, hadded, hsame, hother⟩ := hspoken entry.1 hkey
    have hvalues := hgiven entry.1
    rw [at?_of_mem hnodup hentry, Option.getD_some, hnone] at hvalues
    have hfiltered : other ∈ added.filter (·.1 == entry.1) :=
      List.mem_filter.2 ⟨hadded, beq_iff_eq.2 hsame⟩
    exact hother (List.flatMap_eq_nil_iff.1 hvalues.symm other hfiltered)

theorem putAll_eq_nil_iff {entries added : Entries α} :
    entries.putAll added = [] ↔ entries = [] ∧ added = [] := by
  induction added generalizing entries with
  | nil => simp [putAll]
  | cons entry rest ih =>
    change (entries.put entry.1 entry.2).putAll rest = [] ↔ _
    rw [ih]
    simp [put_ne_nil]

theorem mem_putAll {entries added : Entries α} {entry : String × α}
    (h : entry ∈ entries.putAll added) : entry ∈ added ∨ entry ∈ entries := by
  induction added generalizing entries with
  | nil => exact Or.inr h
  | cons first rest ih =>
    change entry ∈ (entries.put first.1 first.2).putAll rest at h
    rcases ih h with hrest | hold
    · exact Or.inl (List.mem_cons_of_mem _ hrest)
    · rcases mem_put hold with rfl | hold
      · exact Or.inl List.mem_cons_self
      · exact Or.inr hold

end Entries

namespace Outcome

/-! ## What edits give -/

/-- The texts that an edit adds to the exceptions, by key. -/
def Edit.exceptionTexts : Edit → List (String × List String)
  | .addException step text operation => [(qualified operation step, [text])]
  | .addExceptions exceptions => exceptions
  | .mergeFailures other => other.exceptions
  | .addError _ _ | .addErrors _ | .addInformation _ | .addTrace _ | .setOutput _
  | .editOutput _ => []

theorem exceptions_apply (outcome : Outcome) (edit : Edit) :
    (outcome.apply edit).exceptions
      = outcome.exceptions.joinAll (· ++ ·) edit.exceptionTexts := by
  cases edit with
  | addError field message => exact exceptions_addError outcome field message
  | addErrors messages => exact exceptions_addErrors outcome messages
  | addExceptions exceptions => exact congrArg Outcome.exceptions (addExceptions_eq outcome _)
  | mergeFailures other =>
    refine (congrArg Outcome.exceptions (addExceptions_eq _ other.exceptions)).trans ?_
    dsimp only
    rw [addErrorLists, exceptions_addErrors]
    rfl
  | _ => rfl

theorem exceptions_applyAll (outcome : Outcome) (edits : List Edit) :
    (outcome.applyAll edits).exceptions
      = outcome.exceptions.joinAll (· ++ ·) (edits.flatMap Edit.exceptionTexts) := by
  induction edits generalizing outcome with
  | nil => rfl
  | cons edit rest ih =>
    change ((outcome.apply edit).applyAll rest).exceptions = _
    rw [ih, exceptions_apply, List.flatMap_cons, Entries.joinAll, Entries.joinAll,
      Entries.joinAll, List.foldl_append]

/-- The exceptions of an outcome are the texts that its edits have given, key by key. -/
theorem exceptions_built (output : Json) (edits : List Edit) :
    (built output edits).exceptions
      = Entries.joinAll (· ++ ·) [] (edits.flatMap Edit.exceptionTexts) :=
  exceptions_applyAll (withOutput output) edits

/-! ## Failures and messages -/

theorem isFailure_iff_failures_ne_nil (outcome : Outcome) :
    outcome.isFailure = true ↔ outcome.failures ≠ [] := by
  rw [failures, ne_eq, Entries.putAll_eq_nil_iff, List.map_eq_nil_iff]
  cases herrors : outcome.errors <;> cases hexceptions : outcome.exceptions <;>
    simp [isFailure, herrors, hexceptions]

/-- If every field and every step has a message, so has every failure. -/
theorem failures_speak {outcome : Outcome} (herrors : ∀ entry ∈ outcome.errors, entry.2 ≠ [])
    (hexceptions : ∀ entry ∈ outcome.exceptions, entry.2 ≠ []) :
    ∀ entry ∈ outcome.failures, entry.2 ≠ [] := by
  intro entry hentry
  rcases Entries.mem_putAll hentry with hexception | herror
  · obtain ⟨other, hother, rfl⟩ := List.mem_map.1 hexception
    exact mt List.map_eq_nil_iff.1 (hexceptions other hother)
  · exact herrors entry herror

/-- However an outcome is built, it is a failure if and only if there is a key in its failures; so
    it is one if there is a message in them. Conversely, there is a message in the failures of every
    failure, and under every key of its exceptions, if and only if each key for which the edits give
    lists of texts is given a text by one of them. A list without a text, be it added or taken over
    from another outcome, leaves its key behind all the same. -/
theorem failures_speak_iff (output : Json) (edits : List Edit) :
    let outcome := built output edits
    let given : Entries (List String) := edits.flatMap Edit.exceptionTexts
    (outcome.isFailure = true ↔ outcome.failures ≠ [])
      ∧ ((∃ entry ∈ outcome.failures, entry.2 ≠ []) → outcome.isFailure = true)
      ∧ (((outcome.isFailure = true ↔ ∃ entry ∈ outcome.failures, entry.2 ≠ [])
          ∧ (∀ entry ∈ outcome.exceptions, entry.2 ≠ [])
          ∧ ∀ entry ∈ outcome.failures, entry.2 ≠ [])
        ↔ ∀ key ∈ given.keys, ∃ entry ∈ given, entry.1 = key ∧ entry.2 ≠ []) := by
  intro outcome given
  have hkeys := isFailure_iff_failures_ne_nil outcome
  have hloud : (∃ entry ∈ outcome.failures, entry.2 ≠ []) → outcome.isFailure = true := by
    rintro ⟨entry, hentry, -⟩
    exact hkeys.2 (List.ne_nil_of_mem hentry)
  have hgiven : (∀ entry ∈ outcome.exceptions, entry.2 ≠ [])
      ↔ ∀ key ∈ given.keys, ∃ entry ∈ given, entry.1 = key ∧ entry.2 ≠ [] := by
    rw [exceptions_built]
    exact Entries.joined_ne_nil_iff given
  refine ⟨hkeys, hloud, fun h => hgiven.1 h.2.1, fun hspoken => ?_⟩
  have hexceptions := hgiven.2 hspoken
  have hfailures := failures_speak (explicit_built output edits).filled hexceptions
  refine ⟨⟨fun hfailure => ?_, hloud⟩, hexceptions, hfailures⟩
  obtain ⟨entry, hentry⟩ := List.exists_mem_of_ne_nil _ (hkeys.1 hfailure)
  exact ⟨entry, hentry, hfailures entry hentry⟩

/-- An empty list of texts does no harm where there is a text under the key already. -/
theorem empty_list_beside_text_speaks :
    let outcome := built .null [.addException "load" "no such file" none,
      .addExceptions [("load", [])]]
    outcome.isFailure = true ∧ (∃ entry ∈ outcome.failures, entry.2 ≠ [])
      ∧ ∀ entry ∈ outcome.exceptions, entry.2 ≠ [] := by
  intro outcome
  have hspoken : ∀ key ∈ Entries.keys [("load", ["no such file"]), ("load", [])],
      ∃ entry ∈ [("load", ["no such file"]), ("load", [])], entry.1 = key ∧ entry.2 ≠ [] := by
    decide
  obtain ⟨-, -, hspeaks⟩ := failures_speak_iff .null [.addException "load" "no such file" none,
    .addExceptions [("load", [])]]
  obtain ⟨hfailure, hexceptions, -⟩ := hspeaks.2 hspoken
  exact ⟨rfl, hfailure.1 rfl, hexceptions⟩

/-- An empty list of texts under a new key makes a failure in which there is no message. -/
theorem empty_list_fails_in_silence :
    let outcome := built .null [.addExceptions [("load", [])]]
    ¬ ((outcome.isFailure = true ↔ ∃ entry ∈ outcome.failures, entry.2 ≠ [])
        ∧ ∀ entry ∈ outcome.exceptions, entry.2 ≠ [])
      ∧ outcome.isFailure = true ∧ outcome.failures = [("load", [])] := by
  intro outcome
  refine ⟨fun h => ?_, rfl, rfl⟩
  exact h.2 ("load", []) List.mem_cons_self rfl

end Outcome

end OperationPipeline
