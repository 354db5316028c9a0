import OperationPipeline.Json.Basic

set_option autoImplicit false

/-! # Message lists

The messages of one field: no two of them are equal, and none is `null`. `Messages.absorb` adds what
was said about the field: an object is merged into an object at the head of the list, an array
contributes its items, and everything else is one message. -/

namespace OperationPipeline.Messages

/-- The list without repetitions: of equal messages the first one stays. -/
def distinct : List Json → List Json
  | [] => []
  | message :: rest => message :: (distinct rest).filter fun other => !message.same other

/-- The list with `message` added, before repetitions are dropped. -/
def extended : List Json → Json → List Json
  -- the fields of the new object win over those of the head
  | .object head :: rest, .object fields => .object (Entries.placeAll head fields) :: rest
  | messages, .array items => messages ++ items.filter fun item => !item.isNull
  | messages, message => messages ++ [message]

/-- The messages of a field after `message` was added to them. -/
def absorb (messages : List Json) (message : Json) : List Json :=
  distinct (extended messages message)

theorem distinct_eq_nil_iff (messages : List Json) : distinct messages = [] ↔ messages = [] := by
  cases messages <;> simp [distinct]

theorem mem_of_mem_distinct {message : Json} {messages : List Json}
    (h : message ∈ distinct messages) : message ∈ messages := by
  induction messages with
  | nil => simp [distinct] at h
  | cons first rest ih =>
    simp only [distinct, List.mem_cons, List.mem_filter] at h
    rcases h with rfl | ⟨h, -⟩
    · exact List.mem_cons_self
    · exact List.mem_cons_of_mem _ (ih h)

end OperationPipeline.Messages
