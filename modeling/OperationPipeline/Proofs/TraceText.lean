import OperationPipeline.Outcome.Trace
import OperationPipeline.Proofs.JsonText

set_option autoImplicit false

/-! # The text of a trace tells what the trace is

In JSON the entry of an `operation` step holds a list of entries, and that of an `operations` step a
list of lists of entries. Which one it was shows in the first item, as an entry is never written as
a list; so it does not show if there is no item. `TraceEntry.normalized` takes every empty nested
trace for an empty list of traces, and that is all that the text of a trace does not tell
(`TraceEntry.compact_trace_eq_iff`). -/

namespace OperationPipeline.TraceEntry

/-! ## What is not told apart -/

mutual

/-- The entry with every empty nested trace as an empty list of traces. -/
def normalized : TraceEntry → TraceEntry
  | .step name => .step name
  | .operation name trace =>
    if trace.isEmpty then .operations name [] else .operation name (normalizedTrace trace)
  | .operations name traces => .operations name (normalizedTraces traces)
termination_by structural entry => entry

def normalizedTrace : List TraceEntry → List TraceEntry
  | [] => []
  | entry :: rest => entry.normalized :: normalizedTrace rest
termination_by structural trace => trace

def normalizedTraces : List (List TraceEntry) → List (List TraceEntry)
  | [] => []
  | trace :: rest => normalizedTrace trace :: normalizedTraces rest
termination_by structural traces => traces

end

mutual

theorem toJson_normalized : (entry : TraceEntry) → entry.normalized.toJson = entry.toJson
  | .step name => rfl
  | .operation name [] => rfl
  | .operation name (entry :: rest) => by
    have htrace := traceToJson_normalizedTrace (entry :: rest)
    rw [normalized, if_neg (by simp), toJson, toJson, htrace]
  | .operations name traces => by
    rw [normalized, toJson, toJson, tracesToJson_normalizedTraces traces]

theorem traceToJson_normalizedTrace : (trace : List TraceEntry) →
    traceToJson (normalizedTrace trace) = traceToJson trace
  | [] => rfl
  | entry :: rest => by
    rw [normalizedTrace, traceToJson, traceToJson, toJson_normalized entry,
      traceToJson_normalizedTrace rest]

theorem tracesToJson_normalizedTraces : (traces : List (List TraceEntry)) →
    tracesToJson (normalizedTraces traces) = tracesToJson traces
  | [] => rfl
  | trace :: rest => by
    rw [normalizedTraces, tracesToJson, tracesToJson, traceToJson_normalizedTrace trace,
      tracesToJson_normalizedTraces rest]

end

/-! ## What is told apart -/

/-- No entry is written as a list. -/
theorem toJson_ne_array (entry : TraceEntry) (items : List Json) : entry.toJson ≠ .array items := by
  cases entry <;> exact nofun

/-- The items of a nested trace are those of a list of traces only if there are none. -/
theorem eq_nil_of_traceToJson_eq {trace : List TraceEntry} {traces : List (List TraceEntry)}
    (h : traceToJson trace = tracesToJson traces) : trace = [] ∧ traces = [] := by
  cases trace with
  | nil =>
    cases traces with
    | nil => exact ⟨rfl, rfl⟩
    | cons other more => exact nomatch h
  | cons entry rest =>
    cases traces with
    | nil => exact nomatch h
    | cons other more => exact absurd (List.cons.inj h).1 (toJson_ne_array entry _)

theorem nested_inj {name name' : String} {items items' : List Json}
    (h : Json.object [(name, .array items)] = .object [(name', .array items')]) :
    name = name' ∧ items = items' := by
  simpa using h

mutual

theorem normalized_eq_of_toJson_eq : (entry other : TraceEntry) → entry.toJson = other.toJson →
    entry.normalized = other.normalized
  | .step name, other, h => by
    cases other with
    | step name' => rw [Json.string.inj h]
    | operation _ _ | operations _ _ => exact nomatch h
  | .operation name trace, other, h => by
    cases other with
    | step _ => exact nomatch h
    | operation name' trace' =>
      obtain ⟨rfl, htrace⟩ := nested_inj h
      have hnormalized := normalizedTrace_eq_of_traceToJson_eq trace trace' htrace
      have hempty : trace.isEmpty = trace'.isEmpty := by
        cases trace <;> cases trace' <;> first | rfl | exact nomatch htrace
      rw [normalized, normalized, hnormalized, hempty]
    | operations name' traces =>
      obtain ⟨rfl, htraces⟩ := nested_inj h
      obtain ⟨rfl, rfl⟩ := eq_nil_of_traceToJson_eq htraces
      rfl
  | .operations name traces, other, h => by
    cases other with
    | step _ => exact nomatch h
    | operation name' trace =>
      obtain ⟨rfl, htraces⟩ := nested_inj h
      obtain ⟨rfl, rfl⟩ := eq_nil_of_traceToJson_eq htraces.symm
      rfl
    | operations name' traces' =>
      obtain ⟨rfl, htraces⟩ := nested_inj h
      rw [normalized, normalized, normalizedTraces_eq_of_tracesToJson_eq traces traces' htraces]

theorem normalizedTrace_eq_of_traceToJson_eq : (trace other : List TraceEntry) →
    traceToJson trace = traceToJson other → normalizedTrace trace = normalizedTrace other
  | [], other, h => by
    cases other with
    | nil => rfl
    | cons _ _ => exact nomatch h
  | entry :: rest, other, h => by
    cases other with
    | nil => exact nomatch h
    | cons entry' rest' =>
      obtain ⟨hentry, hrest⟩ := List.cons.inj h
      rw [normalizedTrace, normalizedTrace, normalized_eq_of_toJson_eq entry entry' hentry,
        normalizedTrace_eq_of_traceToJson_eq rest rest' hrest]

theorem normalizedTraces_eq_of_tracesToJson_eq : (traces other : List (List TraceEntry)) →
    tracesToJson traces = tracesToJson other → normalizedTraces traces = normalizedTraces other
  | [], other, h => by
    cases other with
    | nil => rfl
    | cons _ _ => exact nomatch h
  | trace :: rest, other, h => by
    cases other with
    | nil => exact nomatch h
    | cons trace' rest' =>
      obtain ⟨htrace, hrest⟩ := List.cons.inj h
      rw [normalizedTraces, normalizedTraces,
        normalizedTrace_eq_of_traceToJson_eq trace trace' (Json.array.inj htrace),
        normalizedTraces_eq_of_tracesToJson_eq rest rest' hrest]

end

/-! ## Texts -/

mutual

theorem numberless_toJson : (entry : TraceEntry) → entry.toJson.numberless = true
  | .step name => rfl
  | .operation name trace => by
    rw [toJson, Json.numberless, Json.numberlessFields, Json.numberless,
      numberless_traceToJson trace]
    rfl
  | .operations name traces => by
    rw [toJson, Json.numberless, Json.numberlessFields, Json.numberless,
      numberless_tracesToJson traces]
    rfl

theorem numberless_traceToJson : (trace : List TraceEntry) →
    Json.numberlessItems (traceToJson trace) = true
  | [] => rfl
  | entry :: rest => by
    rw [traceToJson, Json.numberlessItems, numberless_toJson entry, numberless_traceToJson rest]
    rfl

theorem numberless_tracesToJson : (traces : List (List TraceEntry)) →
    Json.numberlessItems (tracesToJson traces) = true
  | [] => rfl
  | trace :: rest => by
    rw [tracesToJson, Json.numberlessItems, Json.numberless, numberless_traceToJson trace,
      numberless_tracesToJson rest]
    rfl

end

/-- The compact text of a trace tells everything about it but which of its empty nested entries are
    empty traces and which are empty lists of traces, whatever characters the names of its steps
    have. -/
theorem compact_trace_eq_iff (trace other : List TraceEntry) :
    (Json.array (traceToJson trace)).compact = (Json.array (traceToJson other)).compact
      ↔ normalizedTrace trace = normalizedTrace other := by
  constructor
  · intro hcompact
    have hnumberless : ∀ trace, (Json.array (traceToJson trace)).numberless = true :=
      fun trace => numberless_traceToJson trace
    have hvalues := Json.compact_inj (hnumberless trace) (hnumberless other) hcompact
    exact normalizedTrace_eq_of_traceToJson_eq trace other (Json.array.inj hvalues)
  · intro hnormalized
    rw [← traceToJson_normalizedTrace trace, hnormalized, traceToJson_normalizedTrace]

/-- A name with the text of a nested entry in it is still a name. -/
example : (Json.array (traceToJson [.operation "a" []])).compact
      = (Json.array (traceToJson [.operations "a" []])).compact
    ∧ (Json.array (traceToJson [.operation "a" [.step "b\":["]])).compact
      ≠ (Json.array (traceToJson [.operation "a\":[\"b" []])).compact := by
  decide

end OperationPipeline.TraceEntry
