import OperationPipeline.Json.Writer

set_option autoImplicit false

/-! # The trace of a call

One entry for every step that was run. A step that called other operations holds their traces: one
trace for an `operation` step, a list of traces for an `operations` step.

In JSON a plain entry is the step's name, and a nested one an object whose only key is that name. -/

namespace OperationPipeline

/-- One entry of the trace of a call. -/
inductive TraceEntry where
  | step (name : String)
  | operation (name : String) (trace : List TraceEntry)
  | operations (name : String) (traces : List (List TraceEntry))
  deriving Inhabited

namespace TraceEntry

/-- The step the entry was recorded for. -/
def name : TraceEntry → String
  | .step name => name
  | .operation name _ => name
  | .operations name _ => name

/-! ## JSON -/

mutual

/-- The entry as a JSON value. -/
def toJson : TraceEntry → Json
  | .step name => .string name
  | .operation name trace => .object [(name, .array (traceToJson trace))]
  | .operations name traces => .object [(name, .array (tracesToJson traces))]
termination_by structural entry => entry

/-- The entries of a trace as JSON values. -/
def traceToJson : List TraceEntry → List Json
  | [] => []
  | entry :: rest => entry.toJson :: traceToJson rest
termination_by structural trace => trace

/-- A list of traces as JSON arrays. -/
def tracesToJson : List (List TraceEntry) → List Json
  | [] => []
  | trace :: rest => .array (traceToJson trace) :: tracesToJson rest
termination_by structural traces => traces

end

/-! ## Equality -/

mutual

/-- Whether two entries are equal. -/
def same : TraceEntry → TraceEntry → Bool
  | .step a, .step b => a == b
  | .operation a s, .operation b t => a == b && sameTrace s t
  | .operations a s, .operations b t => a == b && sameTraces s t
  | _, _ => false
termination_by structural entry => entry

/-- Whether two traces are equal. -/
def sameTrace : List TraceEntry → List TraceEntry → Bool
  | [], [] => true
  | a :: as, b :: bs => a.same b && sameTrace as bs
  | _, _ => false
termination_by structural trace => trace

/-- Whether two lists of traces are equal. -/
def sameTraces : List (List TraceEntry) → List (List TraceEntry) → Bool
  | [], [] => true
  | a :: as, b :: bs => sameTrace a b && sameTraces as bs
  | _, _ => false
termination_by structural traces => traces

end

mutual

theorem same_iff : (a b : TraceEntry) → (a.same b = true ↔ a = b)
  | .step a, b => by cases b <;> simp [same]
  | .operation a s, b => by cases b <;> simp [same, sameTrace_iff s]
  | .operations a s, b => by cases b <;> simp [same, sameTraces_iff s]

theorem sameTrace_iff : (a b : List TraceEntry) → (sameTrace a b = true ↔ a = b)
  | [], b => by cases b <;> simp [sameTrace]
  | a :: as, b => by
    cases b with
    | nil => simp [sameTrace]
    | cons b bs => simp [sameTrace, same_iff a, sameTrace_iff as]

theorem sameTraces_iff : (a b : List (List TraceEntry)) → (sameTraces a b = true ↔ a = b)
  | [], b => by cases b <;> simp [sameTraces]
  | a :: as, b => by
    cases b with
    | nil => simp [sameTraces]
    | cons b bs => simp [sameTraces, sameTrace_iff a, sameTraces_iff as]

end

instance : DecidableEq TraceEntry := fun a b => decidable_of_iff _ (same_iff a b)

end TraceEntry

end OperationPipeline
