import OperationPipeline.Outcome.Basic

set_option autoImplicit false

/-! # The JSON text of an outcome

An outcome is written as an object of its five fields. Errors and exceptions keep the order in which
their keys came up, which a JSON value with its sorted fields could not show, so the text is put
together from the texts of the parts. -/

namespace OperationPipeline.Outcome

/-- The characters of the compact text of an outcome. -/
def write (outcome : Outcome) : List Char :=
  Json.writeObject
    [ ("errors", Json.writeObject (outcome.errors.map fun (field, messages) =>
        (field, (Json.array messages).write))),
      ("exceptions", Json.writeObject (outcome.exceptions.map fun (key, texts) =>
        (key, (Json.array (texts.map .string)).write))),
      ("information", (Json.object outcome.information).write),
      ("executions", (Json.array (TraceEntry.traceToJson outcome.trace)).write),
      ("output", outcome.output.write) ]

/-- The compact text of an outcome. -/
def compact (outcome : Outcome) : String :=
  String.ofList outcome.write

end OperationPipeline.Outcome
