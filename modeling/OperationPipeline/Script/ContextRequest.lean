import OperationPipeline.Context

set_option autoImplicit false

/-! # Requests to a context

What can be asked of a context, as data, with the reply to each request. -/

namespace OperationPipeline.Script

/-- Something that is asked of a context. -/
inductive ContextRequest where
  | get (key : String)
  /-- Replaces a value that is present. -/
  | replace (key : String) (value : Json)
  | insert (key : String) (value : Json)
  | remove (key : String)
  | holds (key : String)
  | size
  | isEmpty
  | outputOf (step : String)
  /-- The value under `key`, which is stored first if there is none. -/
  | getOrInsert (key : String) (value : Json)
  /-- Pushes onto the list under `key`, which starts empty. -/
  | push (key : String) (value : Json)
  | equals (values : List (String × Json))
  | readAs (key : String) (type : DataType)
  | store (key : String) (value : Storable)

/-- The reply to a request. -/
inductive ContextReply where
  | done
  | found (value : Option Json)
  | flag (value : Bool)
  | count (n : Nat)
  | value (value : Json)

/-- The list with `item` at its end; any other value stays as it is. -/
def pushedOnto (item : Json) : Json → Json
  | .array items => .array (items ++ [item])
  | other => other

/-- The reply to a request and the context after it. -/
def ContextRequest.reply (context : Context) :
    ContextRequest → Except Fault ContextReply × Context
  | .get key => (.ok (.found (context.get? key)), context)
  | .replace key value =>
    match context.get? key with
    | some old => (.ok (.found (some old)), context.insert key value)
    | none => (.ok (.found none), context)
  | .insert key value => (.ok (.found (context.get? key)), context.insert key value)
  | .remove key => (.ok (.found (context.get? key)), context.erase key)
  | .holds key => (.ok (.flag (context.holds key)), context)
  | .size => (.ok (.count context.size), context)
  | .isEmpty => (.ok (.flag context.isEmpty), context)
  | .outputOf step => (.ok (.found (context.outputOf step)), context)
  | .getOrInsert key value =>
    match context.getOrInsert key value with
    | (value, context) => (.ok (.value value), context)
  | .push key item =>
    match context.getOrInsert key (.array []) with
    | (value, context) =>
      let value := pushedOnto item value
      (.ok (.value value), context.insert key value)
  | .equals values => (.ok (.flag (context.same ⟨Entries.sorted values⟩)), context)
  | .readAs key type => ((context.readAs key type).map .found, context)
  | .store key value =>
    match context.store key value with
    | .ok context => (.ok .done, context)
    | .error fault => (.error fault, context)

end OperationPipeline.Script
