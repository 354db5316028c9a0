import OperationPipeline.EngineError
import OperationPipeline.Json.Inspected
import OperationPipeline.Text.Blank

set_option autoImplicit false

/-! # Configuration

The collaborators and switches that calls of an operation run with. A configuration is polymorphic
in what stands for a transaction backend (`τ`), an instrumentation backend (`ι`) and a reporter
(`ρ`): handles where configurations are kept, the collaborators themselves where a call uses them.

A configuration is valid if its two method names are not blank. An edit is carried out on a copy and
takes effect only if the copy is valid. -/

namespace OperationPipeline

/-! ## Switches -/

/-- Whether calls record the steps they run. -/
inductive Mode where
  | development
  | production
  deriving DecidableEq, Inhabited

namespace Mode

/-- The mode of the given name. -/
def parse : String → Except EngineError Mode
  | "development" => .ok .development
  | "production" => .ok .production
  | other =>
    .error (.invalidConfig "mode"
      ("unknown mode '" ++ other ++ "', expected 'development' or 'production'"))

/-- The name of a mode for inspection. -/
def inspected : Mode → String
  | .development => "Development"
  | .production => "Production"

end Mode

/-- What an instrumentation wraps: whole calls only, or every step as well. -/
inductive TraceLevel where
  | operation
  | step
  deriving DecidableEq, Inhabited

namespace TraceLevel

/-- The level of the given name. -/
def parse : String → Except EngineError TraceLevel
  | "operation" => .ok .operation
  | "step" => .ok .step
  | other =>
    .error (.invalidConfig "instrumentation_level"
      ("unknown level '" ++ other ++ "', expected 'operation' or 'step'"))

/-- The name of a level for inspection. -/
def inspected : TraceLevel → String
  | .operation => "Operation"
  | .step => "Step"

end TraceLevel

/-! ## Configurations -/

/-- What calls of an operation run with. -/
structure Config (τ ι ρ : Type) where
  transactionBackend : Option τ := none
  transactionMethod : String := "transaction"
  transactionOptions : Option Json := none
  instrumentationBackend : Option ι := none
  instrumentationMethod : String := "instrument"
  instrumentationOptions : Entries Json := []
  traceLevel : TraceLevel := .operation
  mode : Mode := .development
  reporter : Option ρ := none
  deriving Inhabited

namespace Config

variable {τ ι ρ τ' ι' ρ' : Type}

/-- Whether calls record the steps they run. -/
def tracesSteps (config : Config τ ι ρ) : Bool :=
  config.mode == .development

/-- Whether an instrumentation backend is set. -/
def isInstrumented (config : Config τ ι ρ) : Bool :=
  config.instrumentationBackend.isSome

/-- The error of a blank method name under the given option. -/
def blankMethod (option : String) : EngineError :=
  .invalidConfig option "method name must not be empty"

/-- Checks that neither method name is blank; the transaction's is looked at first. -/
def validate (config : Config τ ι ρ) : Except EngineError Unit :=
  if Text.isBlank config.transactionMethod then .error (blankMethod "transaction_method")
  else if Text.isBlank config.instrumentationMethod then
    .error (blankMethod "instrumentation_method")
  else .ok ()

/-- The configuration after an edit, which has to be valid. -/
def edited (config : Config τ ι ρ) (edit : Config τ ι ρ → Config τ ι ρ) :
    Except EngineError (Config τ ι ρ) :=
  (edit config).validate.map fun _ => edit config

/-- The same configuration with other things standing for the collaborators. -/
def map (f : τ → τ') (g : ι → ι') (h : ρ → ρ') (config : Config τ ι ρ) : Config τ' ι' ρ' :=
  { config with
    transactionBackend := config.transactionBackend.map f
    instrumentationBackend := config.instrumentationBackend.map g
    reporter := config.reporter.map h }

/-! ## Inspection -/

/-- The configuration for inspection; of a collaborator it only shows whether it is set. -/
def inspected (config : Config τ ι ρ) : String :=
  let options := match config.transactionOptions with
    | some options => "Some(" ++ options.inspected ++ ")"
    | none => "None"
  "Config \x7b transaction_backend: " ++ Text.truth config.transactionBackend.isSome
    ++ ", transaction_method: " ++ Text.quoted config.transactionMethod
    ++ ", transaction_options: " ++ options
    ++ ", instrumentation_backend: " ++ Text.truth config.instrumentationBackend.isSome
    ++ ", instrumentation_method: " ++ Text.quoted config.instrumentationMethod
    ++ ", instrumentation_options: "
    ++ Json.bracedFields (Json.inspectedFields config.instrumentationOptions)
    ++ ", instrumentation_level: " ++ config.traceLevel.inspected
    ++ ", mode: " ++ config.mode.inspected
    ++ ", reporter: " ++ Text.truth config.reporter.isSome ++ " \x7d"

/-! ## Changes as data -/

/-- A change of one option. -/
inductive Change (τ ι ρ : Type) where
  | transactionBackend (backend : Option τ)
  | transactionMethod (method : String)
  | transactionOptions (options : Option Json)
  | instrumentationBackend (backend : Option ι)
  | instrumentationMethod (method : String)
  | instrumentationOptions (options : Entries Json)
  | traceLevel (level : TraceLevel)
  | mode (mode : Mode)
  | reporter (reporter : Option ρ)

/-- Carries out a change. -/
def apply (config : Config τ ι ρ) : Change τ ι ρ → Config τ ι ρ
  | .transactionBackend backend => { config with transactionBackend := backend }
  | .transactionMethod method => { config with transactionMethod := method }
  | .transactionOptions options => { config with transactionOptions := options }
  | .instrumentationBackend backend => { config with instrumentationBackend := backend }
  | .instrumentationMethod method => { config with instrumentationMethod := method }
  | .instrumentationOptions options => { config with instrumentationOptions := options }
  | .traceLevel level => { config with traceLevel := level }
  | .mode mode => { config with mode }
  | .reporter reporter => { config with reporter }

/-- Carries out changes in turn. -/
def applyAll (changes : List (Change τ ι ρ)) (config : Config τ ι ρ) : Config τ ι ρ :=
  changes.foldl apply config

/-! ## Validity -/

theorem validate_eq_ok_iff (config : Config τ ι ρ) :
    config.validate = .ok () ↔
      Text.isBlank config.transactionMethod = false
        ∧ Text.isBlank config.instrumentationMethod = false := by
  simp only [validate]
  cases Text.isBlank config.transactionMethod
    <;> cases Text.isBlank config.instrumentationMethod <;> simp

/-- An edit that is let through gives a valid configuration. -/
theorem validate_of_edited {config result : Config τ ι ρ}
    {edit : Config τ ι ρ → Config τ ι ρ} (h : config.edited edit = .ok result) :
    result = edit config ∧ result.validate = .ok () := by
  simp only [edited] at h
  cases hv : (edit config).validate with
  | error e => simp [hv, Except.map] at h
  | ok u => simp_all [Except.map]

theorem validate_default : validate ({} : Config τ ι ρ) = .ok () :=
  (validate_eq_ok_iff _).2
    ⟨show Text.isBlank "transaction" = false by decide,
      show Text.isBlank "instrument" = false by decide⟩

end Config

end OperationPipeline
