import OperationPipeline.Proofs.Silence

set_option autoImplicit false

/-! # What adding an error does

A message that is blank (`null`, or an array of nothing but `null`) adds nothing. Any other one ends
up in the list of its field: an object is merged into an object at the head of the list
(`Messages.absorb_object`), and what else there is to say is appended message by message, unless an
equal one is there (`Messages.absorb_of_not_merges`). Either way the list has everything that was
said, so saying it again changes nothing (`Messages.absorb_twice`). -/

namespace OperationPipeline

/-! ## Fields of an object -/

namespace Entries

variable {α : Type}

theorem place_place_same (key : String) (value value' : α) (entries : Entries α) :
    (entries.place key value).place key value' = entries.place key value' := by
  induction entries with
  | nil => simp [place]
  | cons entry rest ih =>
    obtain ⟨k, v⟩ := entry
    by_cases hk : k = key
    · simp [place, hk]
    · by_cases hlt : key < k
      · simp [place, hk, hlt]
      · simp [place, hk, hlt, ih]

theorem place_comm_of_lt {key key' : String} (h : key < key') (value value' : α)
    (entries : Entries α) :
    (entries.place key value).place key' value'
      = (entries.place key' value').place key value := by
  have hne : key ≠ key' := fun heq => String.lt_irrefl _ (heq ▸ h)
  have hnot : ¬ key' < key := String.lt_asymm h
  induction entries with
  | nil => simp [place, hne, hne.symm, h, hnot]
  | cons entry rest ih =>
    obtain ⟨k, v⟩ := entry
    by_cases hk' : k = key'
    · -- the greater key is replaced in place, and the lesser one comes before it
      subst hk'
      simp [place, hne, hne.symm, h, hnot]
    · by_cases hlt' : key' < k
      · -- both keys come before the entry
        have hlt : key < k := String.lt_trans h hlt'
        have hk : k ≠ key := fun heq => String.lt_irrefl _ (heq ▸ hlt)
        simp [place, hk, hk', hlt, hlt', hne, hne.symm, h, hnot]
      · -- the greater key goes into the rest
        by_cases hk : k = key
        · subst hk
          simp [place, hk', hlt']
        · by_cases hlt : key < k
          · simp [place, hk, hk', hlt, hlt', hne, hnot]
          · simp [place, hk, hk', hlt, hlt', ih]

theorem place_comm {key key' : String} (hne : key ≠ key') (value value' : α)
    (entries : Entries α) :
    (entries.place key value).place key' value'
      = (entries.place key' value').place key value := by
  by_cases h : key < key'
  · exact place_comm_of_lt h value value' entries
  · exact (place_comm_of_lt (key_lt_of_not_lt hne.symm h) value' value entries).symm

theorem placeAll_cons (entries added : Entries α) (key : String) (value : α) :
    entries.placeAll ((key, value) :: added) = (entries.place key value).placeAll added := rfl

/-- Placing a value first and others after it: the value stays unless its key is among theirs. -/
theorem placeAll_place (key : String) (value : α) (entries added : Entries α) :
    (entries.place key value).placeAll added
      = if key ∈ added.keys then entries.placeAll added
        else (entries.placeAll added).place key value := by
  induction added generalizing entries with
  | nil => rfl
  | cons first rest ih =>
    obtain ⟨k, v⟩ := first
    rw [placeAll_cons, placeAll_cons]
    by_cases hk : k = key
    · subst hk
      have hmem : k ∈ keys ((k, v) :: rest) := List.mem_cons_self
      rw [place_place_same, if_pos hmem]
    · rw [place_comm (Ne.symm hk), ih]
      have hmem : key ∈ keys ((k, v) :: rest) ↔ key ∈ keys rest := by
        simp [keys, Ne.symm hk]
      simp only [hmem]

theorem placeAll_twice (entries added : Entries α) :
    (entries.placeAll added).placeAll added = entries.placeAll added := by
  induction added generalizing entries with
  | nil => rfl
  | cons first rest ih =>
    obtain ⟨k, v⟩ := first
    rw [placeAll_cons, placeAll_cons, placeAll_place k v entries]
    by_cases hk : k ∈ keys rest
    · rw [if_pos hk, placeAll_place, if_pos hk, ih]
    · rw [if_neg hk, place_place_same, placeAll_place, if_neg hk, ih]

/-- The keys of what is placed win. -/
theorem at?_placeAll {added : Entries α} (h : added.keys.Nodup) (entries : Entries α)
    (key : String) :
    (entries.placeAll added).at? key = (added.at? key).or (entries.at? key) := by
  induction added generalizing entries with
  | nil => rfl
  | cons first rest ih =>
    obtain ⟨k, v⟩ := first
    obtain ⟨hnew, hrest⟩ := List.nodup_cons.1 h
    rw [placeAll_cons, ih hrest, at?_place]
    by_cases hk : k = key
    · subst hk
      simp [at?, at?_eq_none_iff.2 hnew]
    · simp [at?, hk]

theorem at?_placeAll_of_none {key : String} {added : Entries α} (h : added.at? key = none)
    (entries : Entries α) : (entries.placeAll added).at? key = entries.at? key := by
  induction added generalizing entries with
  | nil => rfl
  | cons first rest ih =>
    obtain ⟨k, v⟩ := first
    by_cases hk : k = key
    · simp [at?, hk] at h
    · rw [at?, if_neg hk] at h
      rw [placeAll_cons, ih h, at?_place, if_neg hk]

theorem Ascending.nodup_keys {entries : Entries α} (h : entries.Ascending) :
    entries.keys.Nodup :=
  List.Pairwise.imp (fun hlt => fun heq => String.lt_irrefl _ (heq ▸ hlt)) h

/-- Placing what is there changes nothing. -/
theorem place_of_mem {entries : Entries α} (h : entries.Ascending) {key : String} {value : α}
    (hmem : (key, value) ∈ entries) : entries.place key value = entries := by
  induction entries with
  | nil => exact nomatch hmem
  | cons entry rest ih =>
    obtain ⟨k, v⟩ := entry
    obtain ⟨hfirst, hrest⟩ := List.pairwise_cons.1 h
    rcases List.mem_cons.1 hmem with heq | hmem'
    · cases heq
      simp [place]
    · have hlt : k < key := hfirst key (mem_keys_of_mem hmem')
      have hne : k ≠ key := fun heq => String.lt_irrefl _ (heq ▸ hlt)
      rw [place, if_neg hne, if_neg (String.lt_asymm hlt), ih hrest hmem']

theorem placeAll_of_subset {entries : Entries α} (h : entries.Ascending) {added : Entries α}
    (hsubset : ∀ entry ∈ added, entry ∈ entries) : entries.placeAll added = entries := by
  induction added with
  | nil => rfl
  | cons first rest ih =>
    obtain ⟨hfirst, hrest⟩ := List.forall_mem_cons.1 hsubset
    rw [placeAll_cons, place_of_mem h hfirst, ih hrest]

theorem put_of_at? {entries : Entries α} {key : String} {value : α}
    (h : entries.at? key = some value) : entries.put key value = entries := by
  induction entries with
  | nil => exact nomatch h
  | cons entry rest ih =>
    obtain ⟨k, v⟩ := entry
    by_cases hk : k = key
    · subst hk
      have hvalue : v = value := by simpa [at?] using h
      rw [put, if_pos rfl, hvalue]
    · rw [at?, if_neg hk] at h
      rw [put, if_neg hk, ih h]

end Entries

/-- Whether the fields of a value, if it is an object, are in the order of their keys. -/
def Json.Ordered : Json → Prop
  | .object fields => Entries.Ascending fields
  | _ => True

/-- Whether there is nothing to say: `null`, or an array of nothing but `null`. -/
def Json.Blank : Json → Prop
  | .null => True
  | .array items => ∀ item ∈ items, item.isNull = true
  | _ => False

theorem Json.isNull_of_not_blank {message : Json} (h : ¬ message.Blank) :
    message.isNull = false := by
  cases message with
  | null => exact absurd trivial h
  | bool _ | number _ | string _ | array _ | object _ => rfl

/-! ## Lists of messages -/

namespace Messages

/-- What a message has to say: the items of an array, or the message itself, less `null`. -/
def said : Json → List Json
  | .null => []
  | .array items => items.filter fun item => !item.isNull
  | message => [message]

/-- The list with `message` at its end, unless an equal one is there. -/
def appendNew (messages : List Json) (message : Json) : List Json :=
  if messages.any (·.same message) then messages else messages ++ [message]

/-- Whether a message is merged into the head of a list, as both are objects. -/
def Merges (messages : List Json) (message : Json) : Prop :=
  ∃ head rest fields, messages = .object head :: rest ∧ message = .object fields

theorem said_eq_nil_iff (message : Json) : said message = [] ↔ message.Blank := by
  cases message <;> simp [said, Json.Blank]

/-- Joining a list appends its messages one by one. -/
theorem joined_eq_foldl {messages : List Json} (h : Apart messages) (added : List Json) :
    joined messages added = added.foldl appendNew messages := by
  induction added generalizing messages with
  | nil => rw [joined, List.append_nil, distinct_of_apart h, List.foldl_nil]
  | cons first rest ih =>
    have hfirst : distinct (messages ++ [first]) = appendNew messages first := by
      rw [distinct_append, distinct_of_apart h, appendNew]
      cases hany : messages.any (·.same first) <;> simp [distinct, hany]
    have hapart : Apart (appendNew messages first) := hfirst ▸ apart_distinct _
    rw [List.foldl_cons, ← ih hapart, ← hfirst, joined_distinct, joined, joined,
      List.append_assoc, List.singleton_append]

/-- What is not merged is appended. -/
theorem extended_of_not_merges {messages : List Json} {message : Json}
    (hmerges : ¬ Merges messages message) (hsome : message.isNull = false) :
    extended messages message = messages ++ said message := by
  unfold extended
  split
  · rename_i head rest fields
    exact absurd ⟨head, rest, fields, rfl, rfl⟩ hmerges
  · rfl
  · rename_i hitems _
    cases message with
    | null => exact nomatch hsome
    | array items => exact absurd rfl (hitems items)
    | bool _ | number _ | string _ | object _ => rfl

theorem absorb_of_not_merges {messages : List Json} {message : Json} (h : Apart messages)
    (hmerges : ¬ Merges messages message) (hsome : message.isNull = false) :
    absorb messages message = (said message).foldl appendNew messages := by
  rw [absorb, extended_of_not_merges hmerges hsome, ← joined_eq_foldl h, joined]

theorem absorb_object {head : List (String × Json)} {rest : List Json}
    (h : Apart (.object head :: rest)) (fields : List (String × Json)) :
    absorb (.object head :: rest) (.object fields)
      = .object (Entries.placeAll head fields)
        :: rest.filter fun later => !(Json.object (Entries.placeAll head fields)).same later := by
  rw [absorb, extended, distinct, distinct_of_apart (List.pairwise_cons.1 h).2]

/-- An object is merged into a list that was empty before it came only with itself. -/
theorem merges_absorb {messages : List Json} {message : Json} (hmerges : ¬ Merges messages message)
    (hlater : Merges (absorb messages message) message) :
    messages = [] ∧ ∃ fields, message = .object fields := by
  obtain ⟨head, rest, fields, habsorb, rfl⟩ := hlater
  refine ⟨?_, fields, rfl⟩
  cases messages with
  | nil => rfl
  | cons first others =>
    -- the head of the list is still the one that the object was not merged into
    rw [absorb, extended_of_not_merges hmerges rfl, List.cons_append, distinct] at habsorb
    exact absurd ⟨head, others, fields, congrArg (· :: others) (List.cons.inj habsorb).1, rfl⟩
      hmerges

/-- Saying something again adds nothing. -/
theorem absorb_twice {messages : List Json} {message : Json} (h : Apart messages)
    (hsome : message.isNull = false) (hordered : message.Ordered) :
    absorb (absorb messages message) message = absorb messages message := by
  by_cases hmerges : Merges messages message
  · obtain ⟨head, rest, fields, rfl, rfl⟩ := hmerges
    have hapart : Apart (absorb (.object head :: rest) (.object fields)) := apart_distinct _
    rw [absorb_object h] at hapart ⊢
    rw [absorb, extended, Entries.placeAll_twice, distinct_of_apart hapart]
  by_cases hlater : Merges (absorb messages message) message
  · obtain ⟨rfl, fields, rfl⟩ := merges_absorb hmerges hlater
    have hsingle : absorb [] (.object fields) = [.object fields] := rfl
    rw [hsingle, absorb_object (List.pairwise_singleton _ _),
      Entries.placeAll_of_subset hordered fun _ hentry => hentry]
    rfl
  · have hjoined : absorb messages message = joined messages (said message) := by
      rw [absorb, extended_of_not_merges hmerges hsome, joined]
    calc absorb (absorb messages message) message
        = joined (absorb messages message) (said message) := by
          rw [absorb, extended_of_not_merges hlater hsome, joined]
      _ = absorb messages message := by rw [hjoined, joined_twice]

end Messages

namespace Outcome

theorem Tidy.apart_at? {outcome : Outcome} (h : outcome.Tidy) (field : String) :
    Messages.Apart ((outcome.errors.at? field).getD []) := by
  cases hat : outcome.errors.at? field with
  | none => exact List.Pairwise.nil
  | some messages => exact h.apart _ (Entries.mem_of_at?_eq_some hat)

theorem addError_of_blank {outcome : Outcome} (h : outcome.Tidy) (field : String)
    {message : Json} (hblank : message.Blank) : outcome.addError field message = outcome := by
  rcases addError_cases h.explicit.filled field message with hsame | ⟨hsome, hne, hput⟩
  · exact hsame
  -- an array of `null` was said about a field that has messages
  rw [hput]
  have habsorb : Messages.absorb ((outcome.errors.at? field).getD []) message
      = (outcome.errors.at? field).getD [] := by
    have hmerges : ¬ Messages.Merges ((outcome.errors.at? field).getD []) message := by
      rintro ⟨head, rest, fields, -, rfl⟩
      exact hblank
    rw [Messages.absorb_of_not_merges (h.apart_at? field) hmerges hsome,
      (Messages.said_eq_nil_iff message).2 hblank, List.foldl_nil]
  rw [habsorb] at hne ⊢
  cases hat : outcome.errors.at? field with
  | none => exact absurd (congrArg (Option.getD · []) hat) hne
  | some messages => rw [Option.getD_some, Entries.put_of_at? hat]

theorem addError_of_not_blank (outcome : Outcome) (field : String) {message : Json}
    (h : ¬ message.Blank) :
    outcome.addError field message = { outcome with
      errors := outcome.errors.put field
        (Messages.absorb ((outcome.errors.at? field).getD []) message) } := by
  have hsome := Json.isNull_of_not_blank h
  have hne : ∀ messages, Messages.absorb messages message ≠ [] := by
    intro messages hnil
    rw [Messages.absorb, Messages.distinct_eq_nil_iff] at hnil
    by_cases hmerges : Messages.Merges messages message
    · obtain ⟨head, rest, fields, rfl, rfl⟩ := hmerges
      exact List.cons_ne_nil _ _ hnil
    · rw [Messages.extended_of_not_merges hmerges hsome, List.append_eq_nil_iff,
        Messages.said_eq_nil_iff] at hnil
      exact h hnil.2
  simp only [addError, hsome, Bool.false_eq_true, if_false, List.isEmpty_iff, hne]

theorem addError_twice {outcome : Outcome} (h : outcome.Tidy) (field : String) {message : Json}
    (hordered : message.Ordered) :
    (outcome.addError field message).addError field message = outcome.addError field message := by
  by_cases hblank : message.Blank
  · rw [addError_of_blank h field hblank, addError_of_blank h field hblank]
  have hsome := Json.isNull_of_not_blank hblank
  rw [addError_of_not_blank outcome field hblank, addError_of_not_blank _ field hblank]
  dsimp only
  rw [Entries.at?_put, if_pos rfl, Option.getD_some,
    Messages.absorb_twice (h.apart_at? field) hsome hordered, Entries.put_of_at?]
  rw [Entries.at?_put, if_pos rfl]

/-- What adding an error does to an outcome, whatever it has been through. A blank message changes
    nothing. Any other one changes the list of its field alone, which comes last if it is new: an
    object is merged into an object at the head, whose fields give way to those of the same key, and
    later messages that are equal to the new head go; otherwise what the message says is appended,
    one by one, unless an equal message is there. Adding the error again changes nothing. -/
theorem error_joins_its_field (output : Json) (edits : List Edit) (field : String) (message : Json)
    (hordered : message.Ordered) :
    let outcome := built output edits
    let after := outcome.addError field message
    let old := (outcome.errors.at? field).getD []
    (message.Blank → after = outcome)
      ∧ (¬ message.Blank →
        after = { outcome with errors := after.errors }
          ∧ after.errors.keys
            = (if field ∈ outcome.errors.keys then outcome.errors.keys
              else outcome.errors.keys ++ [field])
          ∧ (∀ other, other ≠ field → after.errors.at? other = outcome.errors.at? other)
          ∧ (∀ head rest fields, old = .object head :: rest → message = .object fields →
            let merged := Entries.placeAll head fields
            after.errors.at? field
                = some (.object merged
                  :: rest.filter fun later => !(Json.object merged).same later)
              ∧ (∀ key, merged.at? key = (Entries.at? key fields).or (Entries.at? key head))
              ∧ (Entries.Ascending head → merged.Ascending))
          ∧ (¬ Messages.Merges old message →
            after.errors.at? field
              = some ((Messages.said message).foldl Messages.appendNew old)))
      ∧ after.addError field message = after := by
  intro outcome after old
  have htidy : outcome.Tidy := tidy_built output edits
  refine ⟨fun hblank => addError_of_blank htidy field hblank, fun hblank => ?_,
    addError_twice htidy field hordered⟩
  have hafter : after = { outcome with
      errors := outcome.errors.put field (Messages.absorb old message) } :=
    addError_of_not_blank outcome field hblank
  have hfield : after.errors.at? field = some (Messages.absorb old message) := by
    rw [hafter, Entries.at?_put, if_pos rfl]
  refine ⟨by rw [hafter], by rw [hafter]; exact Entries.keys_put _ _ _, fun other hother => ?_,
    ?_, fun hmerges => ?_⟩
  · rw [hafter, Entries.at?_put, if_neg (Ne.symm hother)]
  · rintro head rest fields hold rfl merged
    have hapart : Messages.Apart (.object head :: rest) := hold ▸ htidy.apart_at? field
    refine ⟨?_, Entries.at?_placeAll hordered.nodup_keys head,
      Entries.ascending_placeAll fields⟩
    rw [hfield, hold, Messages.absorb_object hapart]
  · rw [hfield, Messages.absorb_of_not_merges (htidy.apart_at? field) hmerges
      (Json.isNull_of_not_blank hblank)]

/-- An object that is merged into the head of a list makes it equal to the next message, which
    goes. -/
theorem error_joins_its_field_merging :
    let small := [("code", Json.ofNat 1)]
    let large := [("code", Json.ofNat 1), ("hint", Json.string "retry")]
    let edits := [Edit.addError "name" (.array [.object small, .object large, .string "taken"])]
    let message := Json.object [("hint", .string "retry")]
    message.Ordered ∧ ¬ message.Blank
      ∧ ((built .null edits).addError "name" message).errors.at? "name"
        = some [.object large, .string "taken"]
      ∧ ((built .null edits).addError "name" message).addError "name" message
        = (built .null edits).addError "name" message := by
  intro small large edits message
  have hordered : message.Ordered := List.pairwise_singleton _ _
  have hblank : ¬ message.Blank := id
  obtain ⟨-, hadded, htwice⟩ := error_joins_its_field .null edits "name" message hordered
  obtain ⟨-, -, -, hmerged, -⟩ := hadded hblank
  exact ⟨hordered, hblank, (hmerged small _ _ rfl rfl).1, htwice⟩

end Outcome

end OperationPipeline
