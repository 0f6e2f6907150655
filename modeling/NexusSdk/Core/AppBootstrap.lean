import NexusSdk.Core.Bootstrap
import NexusSdk.Core.Configuration
import NexusSdk.Lib.Traced

/-! `NexusBootstrapper.bootstrap` with all its stages: the lookups of import paths, the snapshots of
the configuration, the clients and the recording of the payload.  What third-party code and the
application's own code do there is given by how they end. -/

namespace NexusSdk.Core

open Lib Input AlgorithmPayloadReader

/-- The code that `bootstrap` calls outside of the framework, by how it ends. -/
structure Services (α O X F : Type) where
  /-- `QueryEnabledStoreCollection().load_stores` -/
  loadStores : List String → Except PyExc Unit
  /-- `with_format` of the class at a path -/
  withFormat : String → Except PyExc Unit
  /-- the construction of the module at a path and its installation -/
  installModule : String → Except PyExc Unit
  /-- `SocketCollection.from_config` -/
  sockets : NexusConfigurationModel O → Except PyExc Unit
  /-- `alias()` of the algorithm class at a path -/
  algorithmAlias : String → Except PyExc String
  /-- `for_storage_path` of the class at a path -/
  forStoragePath : String → String → Except PyExc Unit
  trinoClient : NexusConfigurationModel O → α → Except PyExc Unit
  mlflowClient : NexusConfigurationModel O → α → Except PyExc Unit
  /-- `get_client` of the factory at a path -/
  getClient : String → NexusConfigurationModel O → α → Except PyExc Unit
  /-- the binding of a client to its class -/
  bindClient : Object → Except PyExc Unit
  /-- the enrichment or tagging function at a path -/
  callFunction : String → α → NexusConfigurationModel O → Except PyExc Unit
  loggerFactory : NexusRuntimeConfiguration O X F → Except PyExc Unit
  /-- the construction of the metrics provider at a path -/
  metricsProvider : String → NexusRuntimeConfiguration O X F → Except PyExc Unit
  telemetryRecorder : NexusConfigurationModel O → Except PyExc Unit
  /-- `app_injector.get` of the recorder of payloads -/
  payloadRecorder : Except PyExc Unit
  /-- the async clients of the receiver and of the scheduler -/
  asyncClients : NexusConfigurationModel O → Except PyExc Unit
  /-- `from_runtime_configuration` of the custom model at a path -/
  customConfiguration : String → NexusRuntimeConfiguration O X F → Except PyExc Unit

/-- An application before `bootstrap`. -/
structure Application (α O X F : Type) where
  imports : Imports
  services : Services α O X F
  modules : Modules
  sasUri : String
  config : NexusRuntimeConfiguration O X F
  /-- the exception class at a path -/
  classAt : Object → PyClass
  payloadTypeAt : String → PayloadType α
  algorithmResolver : Option (α → Except PyExc (String × Option String))
  /-- the model of `set_configuration_model` -/
  configurationModel : Option Object
  /-- whether the packages of the optional clients are installed -/
  trino : Bool
  mlflow : Bool
  located : tryLocateErrorClasses (fun path => (imports.locate path).map (Option.map classAt))
    config.default.base.runtime.scopedExceptions = .ok true

/-- A client factory with the class to which its client is bound. -/
inductive ClientFactory
  | storageClient
  | trinoClient
  | mlflowClient
  | additional (clientClass factoryClass : Object)

/-- What others see of `bootstrap` while it runs. -/
inductive BootEvent (O : Type)
  /-- a factory is handed a model of the configuration -/
  | getClient (factory : ClientFactory) (model : NexusConfigurationModel O)
  /-- `record_user_telemetry` with `PayloadTelemetry` -/
  | recordPayload (content : Option String)
  /-- `record_user_telemetry` with `FailedPayloadRecorder` -/
  | recordFailedPayload (content : Option String)

/-- The bindings of the configuration: the base settings of the model, and the live settings. -/
structure Injector (O X F : Type) where
  configurationModel : NexusConfigurationModel O
  runtimeConfiguration : NexusRuntimeConfiguration O X F

/-! ### Handlers -/

section Handlers

variable {β : Type}

/-- `except Exception as e: raise FatalStartupConfigurationError(message) from e`. -/
def fatalOnException (message : String) (x : Except PyExc β) : Except PyExc β :=
  x.mapError fun e =>
    if e.isInstance exception then .raisedFrom fatalStartupConfigurationError message e else e

/-- The same for `except BaseException`. -/
def fatalOnBaseException (message : String) (x : Except PyExc β) : Except PyExc β :=
  x.mapError fun e => .raisedFrom fatalStartupConfigurationError message e

end Handlers

/-- What `bootstrap` has loaded before it reads the payload. -/
structure Prepared (α : Type) where
  logEnricher : Option Object
  logTagger : Option Object
  metricTagger : Option Object
  bootstrapPayloadType : Option (PayloadType α)

/-- The name of the type for the message about a payload that was not parsed. -/
def Prepared.parsedTypeName {α : Type} (prepared : Prepared α) : Except PyExc String :=
  match prepared.bootstrapPayloadType with
  | some payloadType => .ok payloadType.name
  -- `self._payload_type`, which is set before a morph only, is `None`
  | none => .error (noneHasNo "__name__")

/-- The resolved algorithm's configuration. -/
structure Resolved (O X F : Type) where
  config : NexusRuntimeConfiguration O X F
  configurationModel : Option Object

namespace Application

variable {α O X F : Type} (app : Application α O X F)

/-- `NexusConfigurationModel.from_runtime_configuration` at the start. -/
def startModel : NexusConfigurationModel O := .fromRuntimeConfiguration app.config

/-! ### Before the payload -/

def getCollection : Except PyExc Unit :=
  if app.startModel.queryEnabledStore.enabled then
    fatalOnException ("Unable to initialize QES collection. Please ensure " ++
        "query_enabled_store.store_connections list property is defined in TOML configuration.")
      (app.services.loadStores app.startModel.queryEnabledStore.storeConnections)
  else .ok ()

def withFormat : Option Object → Except PyExc Unit
  | none => .error (noneHasNo "__orig_bases__")
  | some .builtins => .error (builtinsHasNo "__orig_bases__")
  | some (.named path) => app.services.withFormat path

def getSerializer (message : String → String) (serializers : List String) : Except PyExc Unit :=
  serializers.forM fun serializerClass =>
    fatalOnException (message serializerClass) do
      app.withFormat (← app.imports.locate serializerClass)

def resultSerializer : Except PyExc Unit :=
  app.getSerializer (fun serializerClass => s!"Serializer class {serializerClass}  cannot be " ++
    "created for result, serializer missing or invalid. Review the underlying exception.")
    app.startModel.result.serializers

def telemetrySerializer : Except PyExc Unit :=
  app.getSerializer (fun serializerClass => s!"Serializer class {serializerClass} cannot be " ++
    "created for telemetry, serializer missing or invalid. Review the underlying exception.")
    app.startModel.telemetrySerializers

/-- `pydoc.locate` for exception classes. -/
def locateClass : Locate := fun path => (app.imports.locate path).map (Option.map app.classAt)

def exceptions : RuntimeExceptionsSettings app.locateClass where
  globalDefault := app.startModel.runtime.globalDefault
  scopedEntries := app.startModel.runtime.scopedExceptions
  located := app.located

def activateModule : Object → Except PyExc Unit
  | .builtins => .error (notCallable "module")
  | .named path => app.services.installModule path

def loadModule (additionalModule : String) : Except PyExc Unit := do
  let moduleClass ← app.imports.locateRequired additionalModule
    s!"Failed to load required module: {additionalModule}"
  fatalOnBaseException s!"Failed to activate required module module: {additionalModule}"
    (app.activateModule moduleClass)

/-- An enrichment or tagging function, if one is set. -/
def loadFunction (description path : String) : Except PyExc (Option Object) :=
  if path = "" then .ok none
  else
    (app.imports.locateRequired path s!"Failed to locate a provided {description}: {path}").map some

def loadLogEnricher : Except PyExc (Option Object) :=
  app.loadFunction "log enrichment function" app.startModel.runtime.logEnrichmentFunction

def loadLogTagger : Except PyExc (Option Object) :=
  app.loadFunction "log tagging function" app.startModel.runtime.logTaggingFunction

def loadMetricTagger : Except PyExc (Option Object) :=
  app.loadFunction "metric tagging function" app.startModel.runtime.metricTaggingFunction

def loadPayloadType (typeName : String) : Except PyExc (PayloadType α) :=
  if typeName = "" then
    .error (.raised fatalStartupConfigurationError
      "No payload type specified - please supply the value in [runtime.payload.type_name]")
  else do
    let _ ← app.imports.locateRequired typeName
      s!"Failed to locate required payload type: {typeName}"
    return app.payloadTypeAt typeName

/-- A bootstrap payload type, if one is set. -/
def loadBootstrapPayloadType : Except PyExc (Option (PayloadType α)) :=
  if app.startModel.runtime.payload.bootstrapTypeName = "" then .ok none
  else (app.loadPayloadType app.startModel.runtime.payload.bootstrapTypeName).map some

def prepare : Except PyExc (Prepared α) := do
  app.getCollection
  app.resultSerializer
  app.telemetrySerializer
  let _ ← getCache app.locateClass app.exceptions
  app.startModel.runtime.additionalModules.forM app.loadModule
  let logEnricher ← app.loadLogEnricher
  let logTagger ← app.loadLogTagger
  let metricTagger ← app.loadMetricTagger
  app.services.sockets app.startModel
  let bootstrapPayloadType ← app.loadBootstrapPayloadType
  return ⟨logEnricher, logTagger, metricTagger, bootstrapPayloadType⟩

/-! ### The payload and the algorithm -/

def getPayload (payloadType : PayloadType α) (saveContent : Bool)
    (response : Except PyExc ByteArray) :
    Except PyExc (Option α × AlgorithmPayloadReader α) := do
  let reader ← (init payloadType saveContent).aenter app.modules response
  return (reader.payload, reader)

def readPayload (prepared : Prepared α) (response : Except PyExc ByteArray) :
    Except PyExc (Option α × AlgorithmPayloadReader α) :=
  match prepared.bootstrapPayloadType with
  | some payloadType => app.getPayload payloadType true response
  | none => do
    let payloadType ← app.loadPayloadType app.startModel.runtime.payload.typeName
    app.getPayload payloadType (app.startModel.runtime.payload.serializationMode != "off") response

/-- The payload that was read; parsing failures are reported. -/
def parsedPayload (prepared : Prepared α) (response : Except PyExc ByteArray) :
    Except PyExc (α × AlgorithmPayloadReader α) := do
  let (payload, reader) ← app.readPayload prepared response
  match payload, reader.readExc with
  | some payload, none => return (payload, reader)
  | _, readExc => do
    let name ← prepared.parsedTypeName
    .error (raiseFrom fatalStartupConfigurationError
      s!"Unable to parse bootstrap payload from {app.sasUri} into {name}" readExc)

def aliasOf : Object → Except PyExc String
  | .builtins => .error (builtinsHasNo "alias")
  | .named path => app.services.algorithmAlias path

def loadAlgorithm (algorithm : String) (configModel : Option String) :
    Except PyExc (Resolved O X F) := do
  let algorithmClass ← app.imports.locateRequired algorithm
    s!"Failed to locate a provided algorithm class: {algorithm}"
  let name ← app.aliasOf algorithmClass
  let config := app.config.loadConfigExtension name
  match configModel with
  | none => return ⟨config, app.configurationModel⟩
  | some path => do
    let customModel ← app.imports.locateRequired path
      s!"Failed to locate a provided configuration model: {path}"
    return ⟨config, some customModel⟩

def resolveAlgorithm (payload : α) : Except PyExc (Resolved O X F) :=
  match app.algorithmResolver with
  | some resolver => do
    let (algorithm, configModel) ← resolver payload
    app.loadAlgorithm algorithm configModel
  | none => app.loadAlgorithm app.startModel.runtime.algorithm none

/-- The snapshot of the configuration and the payload that the services get: a payload of a
bootstrap type is morphed into the runtime payload, for which the snapshot is taken again. -/
def runtimePayload (prepared : Prepared α) (resolved : Resolved O X F) (payload : α)
    (reader : AlgorithmPayloadReader α) : Except PyExc (NexusConfigurationModel O × α) :=
  match prepared.bootstrapPayloadType with
  | none => .ok (app.startModel, payload)
  | some bootstrapType => do
    let model := NexusConfigurationModel.fromRuntimeConfiguration resolved.config
    let payloadType ← app.loadPayloadType model.runtime.payload.typeName
    match reader.morph payloadType with
    | (_, some payload) => return (model, payload)
    | (reader, none) => .error (raiseFrom fatalStartupConfigurationError
        (s!"Failed to morph bootstrap payload of class {bootstrapType.name} into runtime payload " ++
          s!"of class {payloadType.name}") reader.readExc)

/-! ### Clients -/

def loadFactory (additionalFactory : AdditionalFactorySettings) : Except PyExc ClientFactory := do
  let factoryClass ← app.imports.locateRequired additionalFactory.factoryClass
    s!"Failed to locate required factory: {additionalFactory.factoryClass}"
  let clientClass ← app.imports.locateRequired additionalFactory.clientClass
    s!"Failed to locate required client class: {additionalFactory.clientClass}"
  return .additional clientClass factoryClass

/-- `StorageClientFactory.get_client`. -/
def getStorageClient (model : NexusConfigurationModel O) : Except PyExc Unit := do
  let storageClientClass ← app.imports.locate model.result.storageClientClass
  fatalOnException ("StorageClient cannot be created, configuration missing or invalid. " ++
      "Review the underlying exception.")
    (match storageClientClass with
      | none => .error (noneHasNo "for_storage_path")
      | some .builtins => .error (builtinsHasNo "for_storage_path")
      | some (.named path) => app.services.forStoragePath path model.result.outputPath)

/-- `get_client` of a factory, and the binding of its client. -/
def getClient (model : NexusConfigurationModel O) (payload : α) :
    ClientFactory → Traced (BootEvent O) PyExc Unit
  | .storageClient => do
    .emit (.getClient .storageClient model)
    .of (app.getStorageClient model)
  | .trinoClient => do
    .emit (.getClient .trinoClient model)
    .of (app.services.trinoClient model payload)
  | .mlflowClient => do
    .emit (.getClient .mlflowClient model)
    .of (app.services.mlflowClient model payload)
  | .additional _ .builtins => .raise (builtinsHasNo "get_client")
  | .additional clientClass (.named path) => do
    .emit (.getClient (.additional clientClass (.named path)) model)
    .of (app.services.getClient path model payload)
    .of (app.services.bindClient clientClass)

/-- What the handler in `_bind_clients` raises. -/
def activationError (factory : ClientFactory) (e : PyExc) : PyExc :=
  let activate (name : String) : PyExc := .raisedFrom fatalStartupConfigurationError
    s!"Failed to activate required client factory: {name}" e
  if e.isInstance fatalStartupConfigurationError then e
  else match factory with
    | .storageClient =>
      activate "nexus_client_sdk.nexus.core.app_dependencies.StorageClientFactory"
    | .trinoClient =>
      activate "nexus_client_sdk.nexus.modules.trino_client_factory.TrinoClientFactory"
    | .mlflowClient =>
      activate "nexus_client_sdk.nexus.modules.mlflow_client_factory.MlflowClientFactory"
    -- a module has no `__module__`
    | .additional _ .builtins => (builtinsHasNo "__module__").during e
    | .additional _ (.named path) => activate path

def activateFactory (model : NexusConfigurationModel O) (payload : α) (factory : ClientFactory) :
    Traced (BootEvent O) PyExc Unit :=
  (app.getClient model payload factory).handle fun e => .raise (activationError factory e)

def builtInFactories : List ClientFactory :=
  .storageClient :: (if app.trino then [.trinoClient] else []) ++
    (if app.mlflow then [.mlflowClient] else [])

def bindClients (model : NexusConfigurationModel O) (payload : α) :
    Traced (BootEvent O) PyExc Unit := do
  let additional ← .of (model.runtime.additionalFactories.mapM app.loadFactory)
  (app.builtInFactories ++ additional).forM (app.activateFactory model payload)

/-! ### Observability and the configuration -/

/-- Without a function the default one returns an empty mapping. -/
def callFunction (payload : α) (model : NexusConfigurationModel O) :
    Option Object → Except PyExc Unit
  | none => .ok ()
  | some .builtins => .error (notCallable "module")
  | some (.named path) => app.services.callFunction path payload model

/-- `MetricsProviderFactory(config).create_provider()`. -/
def createProvider (config : NexusRuntimeConfiguration O X F) : Except PyExc Unit := do
  let metricsClass ← fatalOnBaseException "MetricsProviderFactory.__init__"
    (app.imports.locate config.default.base.metricsProvider)
  fatalOnException "create_provider -> MetricsProvider"
    (match metricsClass with
      | none => .error (notCallable "NoneType")
      | some .builtins => .error (notCallable "module")
      | some (.named path) => app.services.metricsProvider path config)

def bindObservability (prepared : Prepared α) (config : NexusRuntimeConfiguration O X F)
    (model : NexusConfigurationModel O) (payload : α) : Except PyExc Unit := do
  app.callFunction payload model prepared.logEnricher
  app.callFunction payload model prepared.logTagger
  app.callFunction payload model prepared.metricTagger
  app.services.loggerFactory config
  app.createProvider config

/-- The recording of the payload, for the modes in which there is a recorder. -/
def recordPayload (model : NexusConfigurationModel O) (reader : AlgorithmPayloadReader α) :
    Traced (BootEvent O) PyExc Unit :=
  let mode := model.runtime.payload.serializationMode
  if mode = "on_failure" ∨ mode = "always" then do
    .of (app.services.telemetryRecorder model)
    .when (reader.readExc.isNone && mode == "always") do
      .of app.services.payloadRecorder
      .emit (.recordPayload reader.payloadStr)
    .when (reader.readExc.isSome && mode == "on_failure") do
      .of app.services.payloadRecorder
      .emit (.recordFailedPayload reader.payloadStr)
  else pure ()

/-- The binding of the configuration, built again for a custom model. -/
def bindConfiguration (resolved : Resolved O X F) (model : NexusConfigurationModel O) :
    Except PyExc (Injector O X F) :=
  match resolved.configurationModel with
  | none => .ok ⟨model, resolved.config⟩
  | some .builtins => .error (builtinsHasNo "from_runtime_configuration")
  | some (.named path) => do
    app.services.customConfiguration path resolved.config
    return ⟨.fromRuntimeConfiguration resolved.config, resolved.config⟩

/-- What follows the binding of the payload. -/
def bindServices (prepared : Prepared α) (resolved : Resolved O X F)
    (model : NexusConfigurationModel O) (payload : α) (reader : AlgorithmPayloadReader α) :
    Traced (BootEvent O) PyExc (Injector O X F) := do
  app.bindClients model payload
  .of (app.bindObservability prepared resolved.config model payload)
  app.recordPayload model reader
  .of (app.services.asyncClients model)
  .of (app.bindConfiguration resolved model)

/-- `bootstrap`, with the outcome of the download of the payload. -/
def bootstrap (response : Except PyExc ByteArray) :
    Traced (BootEvent O) PyExc (Injector O X F) := do
  let prepared ← .of app.prepare
  let (payload, reader) ← .of (app.parsedPayload prepared response)
  let resolved ← .of (app.resolveAlgorithm payload)
  let (model, payload) ← .of (app.runtimePayload prepared resolved payload reader)
  app.bindServices prepared resolved model payload reader

/-- The stages up to the binding of the payload, and what follows it. -/
def untilBound {β : Type} (response : Except PyExc ByteArray)
    (rest : Prepared α → Resolved O X F → NexusConfigurationModel O → α →
      AlgorithmPayloadReader α → Except PyExc β) : Except PyExc β := do
  let prepared ← app.prepare
  let (payload, reader) ← app.parsedPayload prepared response
  let resolved ← app.resolveAlgorithm payload
  let (model, runtime) ← app.runtimePayload prepared resolved payload reader
  rest prepared resolved model runtime reader

/-! ### What the stages have loaded -/

/-- The payload that is read first. -/
def firstPayload (response : Except PyExc ByteArray) : Option (α × AlgorithmPayloadReader α) :=
  (app.prepare >>= fun prepared => app.parsedPayload prepared response).toOption

/-- The import path of the algorithm for a payload. -/
def algorithmPath (payload : α) : Except PyExc String :=
  match app.algorithmResolver with
  | some resolver => (resolver payload).map Prod.fst
  | none => .ok app.startModel.runtime.algorithm

/-- The alias of the algorithm for a payload. -/
def algorithmAlias (payload : α) : Except PyExc String := do
  let path ← app.algorithmPath payload
  match ← app.imports.locate path with
  | none => .ok ""
  | some algorithmClass => app.aliasOf algorithmClass

/-- The live settings when `bootstrap` ends: extended if it gets to know the algorithm's alias. -/
def finalConfiguration (response : Except PyExc ByteArray) : NexusRuntimeConfiguration O X F :=
  match app.firstPayload response with
  | none => app.config
  | some (payload, _) =>
    app.config.loadConfigExtension ((app.algorithmAlias payload).toOption.getD "")

/-- The snapshot that the services get. -/
def snapshot (prepared : Prepared α) (resolved : Resolved O X F) : NexusConfigurationModel O :=
  match prepared.bootstrapPayloadType with
  | none => app.startModel
  | some _ => .fromRuntimeConfiguration resolved.config

/-- The application as a bootstrapper of which only the reading of the payload is known. -/
def stages (response : Except PyExc ByteArray) : NexusBootstrapper α where
  modules := app.modules
  sasUri := app.sasUri
  serializationMode := app.startModel.runtime.payload.serializationMode
  prepare := app.prepare.map fun _ => ()
  bootstrapPayloadType := app.prepare.toOption.bind Prepared.bootstrapPayloadType
  loadPayloadType := app.loadPayloadType app.startModel.runtime.payload.typeName
  algorithmResolver := app.algorithmResolver
  algorithm := app.startModel.runtime.algorithm
  loadAlgorithm algorithm configModel := (app.loadAlgorithm algorithm configModel).map fun _ => ()
  reloadPayloadType := app.loadPayloadType
    (app.finalConfiguration response).default.base.runtime.payload.typeName
  bindServices runtime := do
    let prepared ← app.prepare
    let (payload, reader) ← app.parsedPayload prepared response
    let resolved ← app.resolveAlgorithm payload
    let model := app.snapshot prepared resolved
    (app.bindServices prepared resolved model runtime reader).outcome.map fun _ => ()

variable {app} {response : Except PyExc ByteArray} {prepared : Prepared α}
  {resolved : Resolved O X F} {model : NexusConfigurationModel O} {payload runtime : α}
  {reader : AlgorithmPayloadReader α}

theorem locate_of_locateRequired {imports : Imports} {path message : String} {object : Object}
    (h : imports.locateRequired path message = .ok object) :
    imports.locate path = .ok (some object) := by
  obtain ⟨found, hfound, h⟩ := bind_eq_ok.mp h
  cases found with
  | none => cases h
  | some _ =>
    obtain rfl := Except.ok.inj h
    exact hfound

/-- The algorithm's alias names the extension of the settings. -/
theorem config_of_loadAlgorithm {path : String} {configModel : Option String}
    (h : app.loadAlgorithm path configModel = .ok resolved) :
    ∃ object name, app.imports.locate path = .ok (some object) ∧ app.aliasOf object = .ok name ∧
      resolved.config = app.config.loadConfigExtension name := by
  obtain ⟨object, hobject, h⟩ := bind_eq_ok.mp h
  obtain ⟨name, hname, h⟩ := bind_eq_ok.mp h
  refine ⟨object, name, locate_of_locateRequired hobject, hname, ?_⟩
  cases configModel with
  | none =>
    obtain rfl := Except.ok.inj h
    rfl
  | some path =>
    obtain ⟨customModel, -, h⟩ := bind_eq_ok.mp h
    obtain rfl := Except.ok.inj h
    rfl

theorem config_of_resolveAlgorithm (h : app.resolveAlgorithm payload = .ok resolved) :
    ∃ name, app.algorithmAlias payload = .ok name ∧
      resolved.config = app.config.loadConfigExtension name := by
  have halias {path : String} {configModel : Option String}
      (hpath : app.algorithmPath payload = .ok path)
      (hload : app.loadAlgorithm path configModel = .ok resolved) :
      ∃ name, app.algorithmAlias payload = .ok name ∧
        resolved.config = app.config.loadConfigExtension name := by
    obtain ⟨object, name, hobject, hname, hconfig⟩ := config_of_loadAlgorithm hload
    refine ⟨name, ?_, hconfig⟩
    rw [algorithmAlias, hpath]
    simp only [bind, Except.bind, hobject, hname]
  unfold resolveAlgorithm at h
  cases hresolver : app.algorithmResolver with
  | none =>
    rw [hresolver] at h
    exact halias (by rw [algorithmPath, hresolver]) h
  | some resolver =>
    rw [hresolver] at h
    obtain ⟨⟨path, configModel⟩, hpath, h⟩ := bind_eq_ok.mp h
    refine halias ?_ h
    rw [algorithmPath, hresolver]
    simp only [hpath, Except.map]

theorem finalConfiguration_eq (hprepare : app.prepare = .ok prepared)
    (hparse : app.parsedPayload prepared response = .ok (payload, reader))
    (hresolve : app.resolveAlgorithm payload = .ok resolved) :
    app.finalConfiguration response = resolved.config := by
  obtain ⟨name, hname, hconfig⟩ := config_of_resolveAlgorithm hresolve
  have hfirst : app.firstPayload response = some (payload, reader) := by
    simp only [firstPayload, hprepare, bind, Except.bind, hparse, Except.toOption]
  rw [finalConfiguration, hfirst, hconfig]
  simp only [hname, Except.toOption, Option.getD_some]

/-- The stages up to the binding of the payload return these values. -/
structure Binds (app : Application α O X F) (response : Except PyExc ByteArray)
    (prepared : Prepared α) (payload : α) (reader : AlgorithmPayloadReader α)
    (resolved : Resolved O X F) (model : NexusConfigurationModel O) (runtime : α) : Prop where
  prepare : app.prepare = .ok prepared
  parse : app.parsedPayload prepared response = .ok (payload, reader)
  resolve : app.resolveAlgorithm payload = .ok resolved
  bound : app.runtimePayload prepared resolved payload reader = .ok (model, runtime)

theorem Binds.bootstrap_eq
    (h : app.Binds response prepared payload reader resolved model runtime) :
    app.bootstrap response = app.bindServices prepared resolved model runtime reader := by
  simp only [bootstrap, h.prepare, Traced.of_ok_bind, h.parse, h.resolve, h.bound]

theorem Binds.finalConfiguration_eq
    (h : app.Binds response prepared payload reader resolved model runtime) :
    app.finalConfiguration response = resolved.config :=
  Application.finalConfiguration_eq h.prepare h.parse h.resolve

/-- Whatever follows, the stages up to the binding return, or end with an exception. -/
theorem binds_or_fails (app : Application α O X F) (response : Except PyExc ByteArray) :
    (∃ prepared payload reader resolved model runtime,
      app.Binds response prepared payload reader resolved model runtime ∧
        ∀ (β : Type) rest, app.untilBound (β := β) response rest =
          rest prepared resolved model runtime reader) ∨
      ∃ e, app.bootstrap response = .of (.error e) ∧
        ∀ (β : Type) rest, app.untilBound (β := β) response rest = .error e := by
  cases hprepare : app.prepare with
  | error e =>
    refine .inr ⟨e, ?_, fun β rest => ?_⟩
    · simp only [bootstrap, hprepare, Traced.of_error_bind]
    · simp only [untilBound, hprepare, bind, Except.bind]
  | ok prepared =>
  cases hparse : app.parsedPayload prepared response with
  | error e =>
    refine .inr ⟨e, ?_, fun β rest => ?_⟩
    · simp only [bootstrap, hprepare, Traced.of_ok_bind, hparse, Traced.of_error_bind]
    · simp only [untilBound, hprepare, bind, Except.bind, hparse]
  | ok read =>
  obtain ⟨payload, reader⟩ := read
  cases hresolve : app.resolveAlgorithm payload with
  | error e =>
    refine .inr ⟨e, ?_, fun β rest => ?_⟩
    · simp only [bootstrap, hprepare, Traced.of_ok_bind, hparse, hresolve, Traced.of_error_bind]
    · simp only [untilBound, hprepare, bind, Except.bind, hparse, hresolve]
  | ok resolved =>
  cases hruntime : app.runtimePayload prepared resolved payload reader with
  | error e =>
    refine .inr ⟨e, ?_, fun β rest => ?_⟩
    · simp only [bootstrap, hprepare, Traced.of_ok_bind, hparse, hresolve, hruntime,
        Traced.of_error_bind]
    · simp only [untilBound, hprepare, bind, Except.bind, hparse, hresolve, hruntime]
  | ok bound =>
    obtain ⟨model, runtime⟩ := bound
    refine .inl ⟨prepared, payload, reader, resolved, model, runtime,
      ⟨hprepare, hparse, hresolve, hruntime⟩, fun β rest => ?_⟩
    simp only [untilBound, hprepare, bind, Except.bind, hparse, hresolve, hruntime]

/-- The payload flow is that of a bootstrap type exactly if one is configured. -/
theorem bootstrapPayloadType_of_prepare (h : app.prepare = .ok prepared) :
    prepared.bootstrapPayloadType.isSome = true ↔
      app.startModel.runtime.payload.bootstrapTypeName ≠ "" := by
  obtain ⟨_, -, h⟩ := bind_eq_ok.mp h
  obtain ⟨_, -, h⟩ := bind_eq_ok.mp h
  obtain ⟨_, -, h⟩ := bind_eq_ok.mp h
  obtain ⟨_, -, h⟩ := bind_eq_ok.mp h
  obtain ⟨_, -, h⟩ := bind_eq_ok.mp h
  obtain ⟨_, -, h⟩ := bind_eq_ok.mp h
  obtain ⟨_, -, h⟩ := bind_eq_ok.mp h
  obtain ⟨_, -, h⟩ := bind_eq_ok.mp h
  obtain ⟨_, -, h⟩ := bind_eq_ok.mp h
  obtain ⟨bootstrapPayloadType, hload, h⟩ := bind_eq_ok.mp h
  obtain rfl := Except.ok.inj h
  unfold loadBootstrapPayloadType at hload
  split at hload
  · next hname =>
    obtain rfl := Except.ok.inj hload
    simp [hname]
  · next hname =>
    cases hpayload : app.loadPayloadType app.startModel.runtime.payload.bootstrapTypeName with
    | error e =>
      rw [hpayload] at hload
      cases hload
    | ok payloadType =>
      rw [hpayload] at hload
      obtain rfl := Except.ok.inj hload
      simp [hname]

/-- If `bootstrap` returns, so do the stages up to the binding. -/
theorem exists_binds {injector : Injector O X F}
    (h : (app.bootstrap response).outcome = .ok injector) :
    ∃ prepared payload reader resolved model runtime,
      app.Binds response prepared payload reader resolved model runtime := by
  rcases app.binds_or_fails response with
    ⟨prepared, payload, reader, resolved, model, runtime, hbinds, -⟩ | ⟨e, he, -⟩
  · exact ⟨prepared, payload, reader, resolved, model, runtime, hbinds⟩
  · rw [he] at h
    cases h

/-- A factory is called with the model that it is handed. -/
theorem mem_events_getClient {factory : ClientFactory} {event : BootEvent O}
    (h : event ∈ (app.getClient model payload factory).events) :
    event = .getClient factory model := by
  have hemit {x : Traced (BootEvent O) PyExc Unit} {factory : ClientFactory} (hx : x.events = [])
      (h : event ∈ (.emit (.getClient factory model) >>= fun _ => x).events) :
      event = .getClient factory model := by
    rcases Traced.mem_events_bind.mp h with h | ⟨_, _, h⟩
    · exact List.mem_singleton.mp h
    · rw [hx] at h
      cases h
  cases factory with
  | storageClient => exact hemit rfl h
  | trinoClient => exact hemit rfl h
  | mlflowClient => exact hemit rfl h
  | additional clientClass factoryClass =>
    cases factoryClass with
    | builtins => cases h
    | named path =>
      refine hemit (List.eq_nil_iff_forall_not_mem.mpr fun event hbind => ?_) h
      rcases Traced.mem_events_bind.mp hbind with hbind | ⟨-, -, hbind⟩
      · cases hbind
      · cases hbind

theorem mem_events_bindClients {event : BootEvent O}
    (h : event ∈ (app.bindClients model payload).events) :
    ∃ factory, event = .getClient factory model := by
  rcases Traced.mem_events_bind.mp h with h | ⟨additional, -, h⟩
  · cases h
  · obtain ⟨factory, -, h⟩ := Traced.mem_events_forM h
    rw [activateFactory, Traced.events_handle_raise] at h
    exact ⟨factory, mem_events_getClient h⟩

/-! ### The model of the stages -/

theorem bootstrapPayloadType_stages (hprepare : app.prepare = .ok prepared) :
    (app.stages response).bootstrapPayloadType = prepared.bootstrapPayloadType := by
  simp only [stages, hprepare, Except.toOption, Option.bind_some]

theorem readPayload_stages (hprepare : app.prepare = .ok prepared) :
    (app.stages response).readPayload response = app.readPayload prepared response := by
  unfold NexusBootstrapper.readPayload readPayload
  rw [bootstrapPayloadType_stages hprepare]
  cases prepared.bootstrapPayloadType <;> rfl

theorem parsedTypeName_stages (hprepare : app.prepare = .ok prepared) :
    (app.stages response).parsedTypeName = prepared.parsedTypeName := by
  unfold NexusBootstrapper.parsedTypeName Prepared.parsedTypeName
  rw [bootstrapPayloadType_stages hprepare]
  cases prepared.bootstrapPayloadType <;> rfl

theorem resolveAlgorithm_stages (payload : α) :
    (app.stages response).resolveAlgorithm payload =
      (app.resolveAlgorithm payload).map fun _ => () := by
  unfold NexusBootstrapper.resolveAlgorithm resolveAlgorithm
  cases hresolver : app.algorithmResolver with
  | none => simp only [stages, hresolver]
  | some resolver =>
    simp only [stages, hresolver]
    cases resolver payload <;> rfl

theorem runtimePayload_stages (hprepare : app.prepare = .ok prepared)
    (hfinal : app.finalConfiguration response = resolved.config) :
    app.runtimePayload prepared resolved payload reader =
      ((app.stages response).runtimePayload payload reader).map fun runtime =>
        (app.snapshot prepared resolved, runtime) := by
  have hreload : (app.stages response).reloadPayloadType =
      app.loadPayloadType resolved.config.default.base.runtime.payload.typeName := by
    rw [stages, hfinal]
  unfold NexusBootstrapper.runtimePayload runtimePayload snapshot
  rw [bootstrapPayloadType_stages hprepare, hreload]
  cases prepared.bootstrapPayloadType with
  | none => rfl
  | some bootstrapType =>
    simp only [NexusConfigurationModel.fromRuntimeConfiguration, bind, Except.bind]
    cases app.loadPayloadType resolved.config.default.base.runtime.payload.typeName with
    | error e => rfl
    | ok payloadType =>
      simp only
      cases reader.morph payloadType with
      | mk reader' morphed => cases morphed <;> rfl

theorem snapshot_of_runtimePayload
    (h : app.runtimePayload prepared resolved payload reader = .ok (model, runtime)) :
    model = app.snapshot prepared resolved := by
  unfold runtimePayload at h
  unfold snapshot
  cases hbootstrap : prepared.bootstrapPayloadType with
  | none =>
    rw [hbootstrap] at h
    exact (Prod.ext_iff.mp (Except.ok.inj h)).1.symm
  | some bootstrapType =>
    rw [hbootstrap] at h
    obtain ⟨payloadType, -, h⟩ := bind_eq_ok.mp h
    cases hmorph : reader.morph payloadType with
    | mk reader' morphed =>
      rw [hmorph] at h
      cases morphed with
      | none => cases h
      | some _ => exact (Prod.ext_iff.mp (Except.ok.inj h)).1.symm

/-- From the payload on, `bootstrap` ends as its stages say. -/
theorem bootstrap_stages_of_parsed (hprepare : app.prepare = .ok prepared)
    (hparse : app.parsedPayload prepared response = .ok (payload, reader)) :
    (do
      (app.stages response).resolveAlgorithm payload
      let runtime ← (app.stages response).runtimePayload payload reader
      (app.stages response).bindServices runtime) =
        (app.bootstrap response).outcome.map fun _ => () := by
  simp only [resolveAlgorithm_stages, bootstrap, hprepare, Traced.of_ok_bind, hparse]
  cases hresolve : app.resolveAlgorithm payload with
  | error e => rfl
  | ok resolved =>
  have hfinal := finalConfiguration_eq hprepare hparse hresolve
  simp only [Traced.of_ok_bind, runtimePayload_stages hprepare hfinal]
  cases (app.stages response).runtimePayload payload reader with
  | error e => rfl
  | ok runtime =>
    simp only [Except.map, Traced.of_ok_bind]
    simp only [stages, hprepare, hparse, hresolve, bind, Except.bind]
    rfl

/-- A payload that was not parsed is reported under the name of the type, if there is one. -/
theorem parsedPayload_of_failed {payload : Option α}
    (hread : app.readPayload prepared response = .ok (payload, reader))
    (hfailed : payload = none ∨ reader.readExc.isSome = true) :
    app.parsedPayload prepared response = prepared.parsedTypeName.bind fun name =>
      .error (raiseFrom fatalStartupConfigurationError
        s!"Unable to parse bootstrap payload from {app.sasUri} into {name}" reader.readExc) := by
  rw [parsedPayload, hread]
  rcases hfailed with rfl | hexc
  · rfl
  · obtain ⟨cause, hcause⟩ := Option.isSome_iff_exists.mp hexc
    simp only [bind, Except.bind, hcause]

theorem parsedPayload_of_read {payload : α}
    (hread : app.readPayload prepared response = .ok (some payload, reader))
    (hexc : reader.readExc = none) :
    app.parsedPayload prepared response = .ok (payload, reader) := by
  rw [parsedPayload, hread]
  simp only [bind, Except.bind, hexc]
  rfl

theorem outcome_bootstrap_of_parse_error {e : PyExc} (hprepare : app.prepare = .ok prepared)
    (hparse : app.parsedPayload prepared response = .error e) :
    (app.bootstrap response).outcome = .error e := by
  rw [bootstrap, hprepare, Traced.of_ok_bind, hparse]
  rfl

/-- `bootstrap` ends as its stages say. -/
theorem bootstrap_stages (app : Application α O X F) (response : Except PyExc ByteArray) :
    (app.stages response).bootstrap response =
      (app.bootstrap response).outcome.map fun _ => () := by
  unfold NexusBootstrapper.bootstrap
  cases hprepare : app.prepare with
  | error e =>
    simp only [stages, bootstrap, hprepare]
    rfl
  | ok prepared =>
  have hstage : (app.stages response).prepare = .ok () := by
    simp only [stages, hprepare]
    rfl
  rw [hstage, readPayload_stages hprepare, parsedTypeName_stages hprepare]
  cases hread : app.readPayload prepared response with
  | error e =>
    have hparse : app.parsedPayload prepared response = .error e := by
      rw [parsedPayload, hread]
      rfl
    rw [outcome_bootstrap_of_parse_error hprepare hparse]
    rfl
  | ok read =>
  obtain ⟨payload, reader⟩ := read
  have hreport (hfailed : payload = none ∨ reader.readExc.isSome = true) :
      (prepared.parsedTypeName.bind fun name => .error (raiseFrom fatalStartupConfigurationError
        s!"Unable to parse bootstrap payload from {app.sasUri} into {name}" reader.readExc)) =
        (app.bootstrap response).outcome.map fun _ => () := by
    have hparse := parsedPayload_of_failed hread hfailed
    cases hname : prepared.parsedTypeName with
    | error e =>
      rw [hname] at hparse
      rw [outcome_bootstrap_of_parse_error hprepare hparse]
      rfl
    | ok name =>
      rw [hname] at hparse
      rw [outcome_bootstrap_of_parse_error hprepare hparse]
      rfl
  cases payload with
  | none => exact hreport (.inl rfl)
  | some payload =>
    cases hexc : reader.readExc with
    | none =>
      rw [← bootstrap_stages_of_parsed hprepare (parsedPayload_of_read hread hexc)]
      simp only [bind, Except.bind, hexc]
    | some cause =>
      simp only [bind, Except.bind, hexc]
      rw [← hexc]
      exact hreport (.inr (by rw [hexc, Option.isSome_some]))

end Application

/-! ### A small application -/

/-- Nothing fails that the framework does not do itself. -/
def quietServices : Services Nat Nat Unit Nat where
  loadStores _ := .ok ()
  withFormat _ := .ok ()
  installModule _ := .ok ()
  sockets _ := .ok ()
  algorithmAlias _ := .ok "sample"
  forStoragePath _ _ := .ok ()
  trinoClient _ _ := .ok ()
  mlflowClient _ _ := .ok ()
  getClient _ _ _ := .ok ()
  bindClient _ := .ok ()
  callFunction _ _ _ := .ok ()
  loggerFactory _ := .ok ()
  metricsProvider _ _ := .ok ()
  telemetryRecorder _ := .ok ()
  payloadRecorder := .ok ()
  asyncClients _ := .ok ()
  customConfiguration _ _ := .ok ()

/-- The modules at the given paths cannot be imported; everything else is found. -/
def importsExcept (broken : List String) : Imports where
  lookup path := if path = "" then .empty else if path ∈ broken then .broken else .present
  lookup_eq_empty path := by
    by_cases hpath : path = ""
    · simp [hpath]
    · by_cases hbroken : path ∈ broken <;> simp [hpath, hbroken]

def sampleSettings (algorithm : String) (payload : RuntimePayloadSettings) : Settings Nat Unit where
  base :=
    { runtime :=
        { algorithm := algorithm
          additionalModules := []
          additionalFactories := []
          logEnrichmentFunction := ""
          logTaggingFunction := ""
          metricTaggingFunction := ""
          payload := payload
          globalDefault := "errors.Fatal"
          scopedExceptions := [] }
      result := ⟨"storage.Client", "/output", []⟩
      telemetrySerializers := []
      queryEnabledStore := ⟨false, []⟩
      metricsProvider := "metrics.Provider"
      others := 0 }
  custom := ()

/-- An application with one algorithm; an extension file sets the settings that `bootstrap` does not
read. -/
def sampleApplication (broken : List String) (settings : Settings Nat Unit)
    (payloadType : PayloadType Nat) (extensions : List Nat)
    (hlocated : tryLocateErrorClasses
      (fun path => ((importsExcept broken).locate path).map (Option.map fun _ => fatalNexusError))
      settings.base.runtime.scopedExceptions = .ok true) :
    Application Nat Nat Unit Nat where
  imports := importsExcept broken
  services := quietServices
  modules := ⟨fun _ => .ok none, fun _ => .error (.raised valueError "Expecting value")⟩
  sasUri := "http://mock.uri/payload.json"
  config :=
    { default := settings
      matchingConfigurations := fun _ => extensions
      settingsLoader := fun settings others =>
        { settings with base := { settings.base with others := others } } }
  classAt _ := fatalNexusError
  payloadTypeAt _ := payloadType
  algorithmResolver := none
  configurationModel := none
  trino := false
  mlflow := false
  located := hlocated

/-- Any text is a payload. -/
def anyPayload : PayloadType Nat where
  name := "AnyPayload"
  fromJson _ := .ok 0

end NexusSdk.Core
