import NexusSdk.Core.CacheFactory

/-! The configuration of an application: its import paths, the model of its settings, and the live
settings, into which extension files are merged. -/

namespace NexusSdk.Core

/-! ### Import paths -/

/-- What there is at an import path. -/
inductive Lookup
  | empty
  | missing
  /-- the import of the module raises -/
  | broken
  | present
  deriving DecidableEq

/-- What `pydoc.locate` returns. -/
inductive Object
  /-- the module `builtins`, for an empty path -/
  | builtins
  | named (path : String)

structure Imports where
  lookup : String → Lookup
  lookup_eq_empty : ∀ path, lookup path = .empty ↔ path = ""

def errorDuringImport : PyClass := .extend "pydoc.ErrorDuringImport" [exception]

/-- The exception of `builtins.name`. -/
def builtinsHasNo (name : String) : PyExc :=
  .raised attributeError s!"module 'builtins' has no attribute '{name}'"

def notCallable (typeName : String) : PyExc :=
  .raised typeError s!"'{typeName}' object is not callable"

namespace Imports

/-- `pydoc.locate`. -/
def locate (imports : Imports) (path : String) : Except PyExc (Option Object) :=
  match imports.lookup path with
  | .empty => .ok (some .builtins)
  | .missing => .ok none
  | .broken => .error (.raised errorDuringImport path)
  | .present => .ok (some (.named path))

/-- `pydoc.locate`, with a startup error for `None`. -/
def locateRequired (imports : Imports) (path message : String) : Except PyExc Object := do
  match ← imports.locate path with
  | none => .error (.raised fatalStartupConfigurationError message)
  | some object => return object

end Imports

/-! ### Settings -/

structure AdditionalFactorySettings where
  factoryClass : String
  clientClass : String

structure RuntimePayloadSettings where
  typeName : String
  bootstrapTypeName : String
  serializationMode : String

structure RuntimeSettings where
  algorithm : String
  additionalModules : List String
  additionalFactories : List AdditionalFactorySettings
  logEnrichmentFunction : String
  logTaggingFunction : String
  metricTaggingFunction : String
  payload : RuntimePayloadSettings
  /-- `exceptions.defaults.global_default` -/
  globalDefault : String
  /-- `exceptions.scoped` -/
  scopedExceptions : List ScopedExceptionSettings

structure ResultSettings where
  storageClientClass : String
  outputPath : String
  serializers : List String

structure QueryEnabledStoreSettings where
  enabled : Bool
  storeConnections : List String

/-- The base settings; `others` are those that `bootstrap` only passes on. -/
structure NexusConfigurationModel (O : Type) where
  runtime : RuntimeSettings
  result : ResultSettings
  /-- `telemetry.serializers` -/
  telemetrySerializers : List String
  queryEnabledStore : QueryEnabledStoreSettings
  /-- `metrics.provider` -/
  metricsProvider : String
  others : O

/-- The live settings, those of a custom model among them. -/
structure Settings (O X : Type) where
  base : NexusConfigurationModel O
  custom : X

/-- The live settings, and the files that extend them; `settingsLoader` merges a file into them. -/
structure NexusRuntimeConfiguration (O X F : Type) where
  default : Settings O X
  /-- the files that match `settings.<extension_name>*.toml` -/
  matchingConfigurations : String → List F
  settingsLoader : Settings O X → F → Settings O X

variable {O X F : Type}

def NexusRuntimeConfiguration.loadConfigExtension (config : NexusRuntimeConfiguration O X F)
    (extensionName : String) : NexusRuntimeConfiguration O X F :=
  if extensionName = "" then config
  else
    { config with
      default := (config.matchingConfigurations extensionName).foldl config.settingsLoader
        config.default }

def NexusConfigurationModel.fromRuntimeConfiguration (config : NexusRuntimeConfiguration O X F) :
    NexusConfigurationModel O :=
  config.default.base

end NexusSdk.Core
