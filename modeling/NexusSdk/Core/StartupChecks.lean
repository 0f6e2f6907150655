import NexusSdk.Core.AppBootstrap
import NexusSdk.Lib.Checked

/-! `bootstrap` as a sequence of checks: the lookups of import paths and the calls of other code, by
how they end.  Each check passes, ends in a startup error or lets another exception through, and
the first one that does not pass decides. -/

namespace NexusSdk.Core

open Lib Input AlgorithmPayloadReader

def isStartupError (e : PyExc) : Bool := e.isInstance fatalStartupConfigurationError

/-- What an import path is for. -/
inductive ImportPath
  | serializer
  | errorTarget
  | errorDefault
  | module
  | function
  | payloadType
  | algorithm
  | configurationModel
  | factory
  | client
  /-- a factory when it is activated -/
  | activatedFactory
  | storageClient
  | metricsProvider
  | decompressionFunction
  /-- a configuration model when the configuration is bound -/
  | boundModel
  deriving DecidableEq

/-- How `bootstrap` answers to what there is at a path: it goes on, ends in a startup error, or lets
another exception through. -/
def ImportPath.answer : ImportPath → Lookup → Option Bool
  | _, .present => none
  -- the lookup and its use are in a `try`
  | .serializer, _ | .storageClient, _ | .metricsProvider, _ => some true
  | .activatedFactory, .empty | .boundModel, .empty => some false
  | .activatedFactory, _ | .boundModel, _ => none
  | _, .broken => some false
  | .errorTarget, _ => none
  | _, .missing => some true
  | .module, .empty | .payloadType, .empty => some true
  | .algorithm, .empty => some false
  -- the module `builtins` is not `None`
  | _, .empty => none

inductive Check
  /-- the lookup of an import path, with the first use of what it returns -/
  | path (kind : ImportPath) (lookup : Lookup)
  /-- a call whose exceptions are let through -/
  | step (outcome : Except PyExc Unit)
  /-- a call in a `try` with `except Exception` -/
  | caught (outcome : Except PyExc Unit)
  /-- a call in a `try` with `except BaseException` -/
  | guarded (outcome : Except PyExc Unit)

/-- Whether the exception with which a check ends is a startup error. -/
def Check.failure : Check → Option Bool
  | path kind lookup => kind.answer lookup
  | step outcome => ending isStartupError outcome
  | caught outcome => ending (fun e => e.isInstance exception || isStartupError e) outcome
  | guarded outcome => ending (fun _ => true) outcome

/-- A stage of `bootstrap` ends as its checks say. -/
abbrev EndsBy {β : Type} (x : Except PyExc β) (checks : List Check) : Prop :=
  Checked isStartupError Check.failure x checks

/-- How a computation ends. -/
def ended {β : Type} (x : Except PyExc β) : Except PyExc Unit := x.map fun _ => ()

section Rules

variable {β : Type}

theorem endsBy_step (x : Except PyExc β) : EndsBy x [.step (ended x)] := by
  refine Checked.single ?_
  cases x <;> rfl

theorem endsBy_step_unit (x : Except PyExc Unit) : EndsBy x [.step x] := Checked.single rfl

theorem endsBy_fatalOnException (message : String) (x : Except PyExc Unit) :
    EndsBy (fatalOnException message x) [.caught x] := by
  refine Checked.single ?_
  cases x with
  | ok _ => rfl
  | error e =>
    simp only [fatalOnException, Except.mapError, Check.failure, ending]
    cases e.isInstance exception <;> rfl

theorem endsBy_fatalOnBaseException (message : String) (x : Except PyExc Unit) :
    EndsBy (fatalOnBaseException message x) [.guarded x] := by
  refine Checked.single ?_
  cases x <;> rfl

theorem of_map_eq_ok {γ : Type} {x : Except PyExc β} {f : β → γ} {c : γ}
    (h : x.map f = .ok c) : ∃ b, x = .ok b ∧ f b = c := by
  cases x with
  | error e => cases h
  | ok b => exact ⟨b, rfl, Except.ok.inj h⟩

/-- A path whose lookup is only compared with `None`. -/
theorem endsBy_locateRequired {kind : ImportPath} (hempty : kind.answer .empty = none)
    (hmissing : kind.answer .missing = some true) (hbroken : kind.answer .broken = some false)
    (imports : Imports) (path message : String) :
    EndsBy (imports.locateRequired path message) [.path kind (imports.lookup path)] := by
  refine Checked.single ?_
  unfold Imports.locateRequired Imports.locate Check.failure
  cases imports.lookup path with
  | empty => exact hempty
  | missing => exact hmissing
  | broken => exact hbroken
  | present =>
    unfold ImportPath.answer
    rfl

end Rules

/-! ### What `bootstrap` loads

In terms of what other code returns. -/

/-- What is located at a path. -/
def objectAt (path : String) : Object := if path = "" then .builtins else .named path

/-- The function at a path that need not be set. -/
def functionAt (path : String) : Option Object := if path = "" then none else some (.named path)

def AdditionalFactorySettings.clientFactory (additionalFactory : AdditionalFactorySettings) :
    ClientFactory :=
  .additional (objectAt additionalFactory.clientClass) (objectAt additionalFactory.factoryClass)

namespace Application

variable {α O X F : Type} (app : Application α O X F)

def bootstrapType : Option (PayloadType α) :=
  let typeName := app.startModel.runtime.payload.bootstrapTypeName
  if typeName = "" then none else some (app.payloadTypeAt typeName)

def loaded : Prepared α where
  logEnricher := functionAt app.startModel.runtime.logEnrichmentFunction
  logTagger := functionAt app.startModel.runtime.logTaggingFunction
  metricTagger := functionAt app.startModel.runtime.metricTaggingFunction
  bootstrapPayloadType := app.bootstrapType

/-- The type into which the body is read. -/
def readType : PayloadType α :=
  app.bootstrapType.getD (app.payloadTypeAt app.startModel.runtime.payload.typeName)

def savesContent : Bool :=
  app.bootstrapType.isSome || app.startModel.runtime.payload.serializationMode != "off"

/-- The text that the reader keeps of the body. -/
def savedText (body : ByteArray) : Except PyExc (Option String) :=
  if app.savesContent then (decodeUtf8 body).map some else .ok none

/-- What `from_json` of the type makes of the body. -/
def parsed (response : Except PyExc ByteArray) : Except PyExc α := do
  let body ← response
  let data ← payloadData app.modules body
  app.readType.fromJson data

/-- The import paths of the algorithm and of its configuration model. -/
def algorithmFor (payload : α) : Except PyExc (String × Option String) :=
  match app.algorithmResolver with
  | some resolver => resolver payload
  | none => .ok (app.startModel.runtime.algorithm, none)

/-- The configuration with the extension of the algorithm's alias. -/
def resolution (payload : α) : Except PyExc (Resolved O X F) := do
  let (algorithm, configModel) ← app.algorithmFor payload
  let name ← app.services.algorithmAlias algorithm
  return ⟨app.config.loadConfigExtension name,
    (configModel.map objectAt).or app.configurationModel⟩

/-- What `from_json` of the runtime type makes of the text of a payload of a bootstrap type. -/
def morphed (response : Except PyExc ByteArray) (resolved : Resolved O X F) (payload : α) :
    Except PyExc α :=
  match app.bootstrapType with
  | none => .ok payload
  | some _ => do
    let body ← response
    let text ← decodeUtf8 body
    (app.payloadTypeAt resolved.config.default.base.runtime.payload.typeName).fromJson (.str text)

/-! ### The checks of `bootstrap` -/

def pathCheck (kind : ImportPath) (path : String) : Check := .path kind (app.imports.lookup path)

def collectionChecks : List Check :=
  if app.startModel.queryEnabledStore.enabled then
    [.caught (app.services.loadStores app.startModel.queryEnabledStore.storeConnections)]
  else []

def serializerChecks (serializers : List String) : List Check :=
  serializers.flatMap fun serializerClass =>
    [app.pathCheck .serializer serializerClass, .caught (app.services.withFormat serializerClass)]

def cacheChecks : List Check :=
  app.startModel.runtime.scopedExceptions.flatMap
      (fun errorMapConfig => [app.pathCheck .errorTarget errorMapConfig.target]) ++
    [app.pathCheck .errorDefault app.startModel.runtime.globalDefault]

def moduleChecks : List Check :=
  app.startModel.runtime.additionalModules.flatMap fun additionalModule =>
    [app.pathCheck .module additionalModule, .guarded (app.services.installModule additionalModule)]

/-- A function or a type that need not be set. -/
def optionalChecks (kind : ImportPath) (path : String) : List Check :=
  if path = "" then [] else [app.pathCheck kind path]

def prepareChecks : List Check :=
  app.collectionChecks ++ app.serializerChecks app.startModel.result.serializers ++
    app.serializerChecks app.startModel.telemetrySerializers ++ app.cacheChecks ++
    app.moduleChecks ++
    app.optionalChecks .function app.startModel.runtime.logEnrichmentFunction ++
    app.optionalChecks .function app.startModel.runtime.logTaggingFunction ++
    app.optionalChecks .function app.startModel.runtime.metricTaggingFunction ++
    [.step (app.services.sockets app.startModel)] ++
    app.optionalChecks .payloadType app.startModel.runtime.payload.bootstrapTypeName

def decompressChecks (envelope : CompressedPayload) : List Check :=
  match envelope.decompressionImportPath with
  | .str path =>
    [.step (ended (app.modules.locate path))] ++ following (app.modules.locate path) fun
      | none => [.path .decompressionFunction .missing]
      | some decompressionFunction =>
        [.guarded (ended (b64decode envelope.content))] ++
          following (b64decode envelope.content) fun compressedBytes =>
            [.step (ended (decompressionFunction compressedBytes))]
  -- `locate` raises for a path that is no text
  | _ => [.path .decompressionFunction .broken]

/-- The exception of `from_json` is reported under the name of the bootstrap type, if there is
one. -/
def parseCheck (data : PyValue) : Check :=
  match app.bootstrapType with
  | some _ => .guarded (ended (app.readType.fromJson data))
  | none => .step (ended ((app.readType.fromJson data).mapError fun _ => noneHasNo "__name__"))

def bodyChecks (body : ByteArray) : List Check :=
  following (app.modules.compressedFromJson (.bytes body)) app.decompressChecks ++
    (if app.savesContent then [.step (ended (decodeUtf8 body))] else []) ++
    following (payloadData app.modules body) fun data => [app.parseCheck data]

/-- A bootstrap type has been looked up before. -/
def readTypeChecks : List Check :=
  match app.bootstrapType with
  | some _ => []
  | none => [app.pathCheck .payloadType app.startModel.runtime.payload.typeName]

def payloadChecks (response : Except PyExc ByteArray) : List Check :=
  app.readTypeChecks ++ [.step (ended response)] ++ following response app.bodyChecks

def loadChecks (algorithm : String) (configModel : Option String) : List Check :=
  [app.pathCheck .algorithm algorithm] ++ [.step (ended (app.services.algorithmAlias algorithm))] ++
    configModel.toList.map (app.pathCheck .configurationModel)

def algorithmChecks (payload : α) : List Check :=
  [.step (ended (app.algorithmFor payload))] ++
    following (app.algorithmFor payload) fun (algorithm, configModel) =>
      app.loadChecks algorithm configModel

def runtimeChecks (response : Except PyExc ByteArray) (resolved : Resolved O X F) (payload : α) :
    List Check :=
  match app.bootstrapType with
  | none => []
  | some _ =>
    [app.pathCheck .payloadType resolved.config.default.base.runtime.payload.typeName] ++
      [.guarded (ended (app.morphed response resolved payload))]

def loadFactoryChecks (additionalFactory : AdditionalFactorySettings) : List Check :=
  [app.pathCheck .factory additionalFactory.factoryClass] ++
    [app.pathCheck .client additionalFactory.clientClass]

def activateChecks (model : NexusConfigurationModel O) (payload : α) : ClientFactory → List Check
  | .storageClient =>
    [app.pathCheck .storageClient model.result.storageClientClass,
      .guarded (app.services.forStoragePath model.result.storageClientClass
        model.result.outputPath)]
  | .trinoClient => [.guarded (app.services.trinoClient model payload)]
  | .mlflowClient => [.guarded (app.services.mlflowClient model payload)]
  | .additional _ .builtins => [.path .activatedFactory .empty]
  | .additional clientClass (.named path) =>
    [.guarded (app.services.getClient path model payload),
      .guarded (app.services.bindClient clientClass)]

def clientChecks (model : NexusConfigurationModel O) (payload : α) : List Check :=
  model.runtime.additionalFactories.flatMap app.loadFactoryChecks ++
    (app.builtInFactories ++ model.runtime.additionalFactories.map
      AdditionalFactorySettings.clientFactory).flatMap (app.activateChecks model payload)

def functionChecks (model : NexusConfigurationModel O) (payload : α) (path : String) :
    List Check :=
  if path = "" then [] else [.step (app.services.callFunction path payload model)]

def observabilityChecks (config : NexusRuntimeConfiguration O X F)
    (model : NexusConfigurationModel O) (payload : α) : List Check :=
  app.functionChecks model payload app.startModel.runtime.logEnrichmentFunction ++
    app.functionChecks model payload app.startModel.runtime.logTaggingFunction ++
    app.functionChecks model payload app.startModel.runtime.metricTaggingFunction ++
    [.step (app.services.loggerFactory config)] ++
    [app.pathCheck .metricsProvider config.default.base.metricsProvider,
      .caught (app.services.metricsProvider config.default.base.metricsProvider config)]

def recordingChecks (model : NexusConfigurationModel O) : List Check :=
  let mode := model.runtime.payload.serializationMode
  if mode = "always" then
    [.step (app.services.telemetryRecorder model), .step app.services.payloadRecorder]
  else if mode = "on_failure" then [.step (app.services.telemetryRecorder model)]
  else []

def configurationChecks (resolved : Resolved O X F) : List Check :=
  match resolved.configurationModel with
  | none => []
  | some .builtins => [.path .boundModel .empty]
  | some (.named path) => [.step (app.services.customConfiguration path resolved.config)]

def serviceChecks (resolved : Resolved O X F) (model : NexusConfigurationModel O) (payload : α) :
    List Check :=
  app.clientChecks model payload ++ app.observabilityChecks resolved.config model payload ++
    app.recordingChecks model ++ [.step (app.services.asyncClients model)] ++
    app.configurationChecks resolved

/-- The checks of `bootstrap` up to the binding of the payload, and what follows it. -/
def checksUntilBound (response : Except PyExc ByteArray)
    (rest : Resolved O X F → NexusConfigurationModel O → α → List Check) : List Check :=
  app.prepareChecks ++ app.payloadChecks response ++
    following (app.parsed response) fun payload =>
      app.algorithmChecks payload ++ following (app.resolution payload) fun resolved =>
        app.runtimeChecks response resolved payload ++
          following (app.morphed response resolved payload) fun runtime =>
            rest resolved (app.snapshot app.loaded resolved) runtime

/-- The checks of `bootstrap`, in their order. -/
def checks (response : Except PyExc ByteArray) : List Check :=
  app.checksUntilBound response app.serviceChecks

/-! ### The stages end by their checks -/

theorem endsBy_getSerializer (message : String → String) (serializers : List String) :
    EndsBy (app.getSerializer message serializers) (app.serializerChecks serializers) := by
  refine Checked.forM fun serializerClass _ => ?_
  have hcaught := endsBy_fatalOnException (message serializerClass)
    (app.imports.locate serializerClass >>= app.withFormat)
  unfold Checked at hcaught ⊢
  rw [hcaught, pathCheck]
  unfold Imports.locate
  cases app.imports.lookup serializerClass <;> rfl

theorem locateClass_eq (path : String) :
    app.locateClass path = match app.imports.lookup path with
      | .empty => .ok (some (app.classAt .builtins))
      | .missing => .ok none
      | .broken => .error (.raised errorDuringImport path)
      | .present => .ok (some (app.classAt (.named path))) := by
  unfold locateClass Imports.locate
  cases app.imports.lookup path <;> rfl

theorem endsBy_fromConfig {value : ScopedExceptionSettings}
    (hlocated : ∀ path ∈ value.errors, ∃ cls, app.locateClass path = .ok (some cls)) :
    EndsBy (NexusErrorMap.fromConfig app.locateClass value)
      [app.pathCheck .errorTarget value.target] := by
  obtain ⟨classes, hclasses, -⟩ := mapM_locate (noneHasNo "") hlocated
  refine Checked.single ?_
  rw [NexusErrorMap.fromConfig, hclasses, locateClass_eq, pathCheck]
  cases app.imports.lookup value.target <;> rfl

theorem endsBy_loadErrorMap {entries : List ScopedExceptionSettings}
    (hlocated : ∀ s ∈ entries, ∀ path ∈ s.errors, ∃ cls, app.locateClass path = .ok (some cls))
    (loaded : Dict String (List NexusErrorMap)) :
    EndsBy (loadErrorMap app.locateClass loaded entries)
      (entries.flatMap fun errorMapConfig =>
        [app.pathCheck .errorTarget errorMapConfig.target]) := by
  induction entries generalizing loaded with
  | nil => exact Checked.ok loaded
  | cons s rest ih =>
    obtain ⟨hs, hrest⟩ := List.forall_mem_cons.mp hlocated
    refine (app.endsBy_fromConfig hs).seq fun entry _ => ?_
    cases loaded.get? s.className with
    | none => exact ih hrest _
    | some entries => exact ih hrest _

theorem endsBy_getCache :
    EndsBy (getCache app.locateClass app.exceptions) app.cacheChecks := by
  refine (app.endsBy_loadErrorMap
    (fun s hs path hpath => exists_classAt app.located hs hpath) _).seq fun loaded _ => ?_
  refine Checked.single ?_
  change _ = ending isStartupError (app.locateClass app.startModel.runtime.globalDefault >>= _)
  rw [locateClass_eq, pathCheck]
  cases app.imports.lookup app.startModel.runtime.globalDefault <;> rfl

theorem endsBy_loadModule (additionalModule : String) :
    EndsBy (app.loadModule additionalModule)
      [app.pathCheck .module additionalModule,
        .guarded (app.services.installModule additionalModule)] := by
  have hguarded (moduleClass : Object) := endsBy_fatalOnBaseException
    s!"Failed to activate required module module: {additionalModule}"
    (app.activateModule moduleClass)
  unfold EndsBy Checked
  unfold loadModule pathCheck Imports.locateRequired Imports.locate
  cases app.imports.lookup additionalModule with
  | empty => exact hguarded .builtins
  | missing => rfl
  | broken => rfl
  | present => exact hguarded (.named additionalModule)

theorem endsBy_loadFunction (description path : String) :
    EndsBy (app.loadFunction description path) (app.optionalChecks .function path) := by
  unfold loadFunction optionalChecks
  split
  · exact Checked.ok none
  · exact (endsBy_locateRequired rfl rfl rfl app.imports path _).map some

theorem endsBy_loadPayloadType (typeName : String) :
    EndsBy (app.loadPayloadType typeName) [app.pathCheck .payloadType typeName] := by
  refine Checked.single ?_
  unfold loadPayloadType pathCheck Imports.locateRequired Imports.locate
  by_cases hempty : typeName = ""
  · rw [if_pos hempty, (app.imports.lookup_eq_empty typeName).mpr hempty]
    rfl
  · rw [if_neg hempty]
    cases hlookup : app.imports.lookup typeName with
    | empty => exact absurd ((app.imports.lookup_eq_empty typeName).mp hlookup) hempty
    | missing => rfl
    | broken => rfl
    | present => rfl

theorem endsBy_loadBootstrapPayloadType :
    EndsBy app.loadBootstrapPayloadType
      (app.optionalChecks .payloadType app.startModel.runtime.payload.bootstrapTypeName) := by
  unfold loadBootstrapPayloadType optionalChecks
  split
  · exact Checked.ok none
  · exact (app.endsBy_loadPayloadType _).map some

theorem endsBy_getCollection : EndsBy app.getCollection app.collectionChecks := by
  unfold getCollection collectionChecks
  split
  · exact endsBy_fatalOnException _ _
  · exact Checked.ok ()

theorem endsBy_prepare : EndsBy app.prepare app.prepareChecks := by
  unfold prepareChecks
  simp only [List.append_assoc]
  refine app.endsBy_getCollection.seq fun _ _ => ?_
  refine (app.endsBy_getSerializer _ _).seq fun _ _ => ?_
  refine (app.endsBy_getSerializer _ _).seq fun _ _ => ?_
  refine app.endsBy_getCache.seq fun _ _ => ?_
  refine (Checked.forM fun additionalModule _ => app.endsBy_loadModule additionalModule).seq
    fun _ _ => ?_
  refine (app.endsBy_loadFunction _ _).seq fun _ _ => ?_
  refine (app.endsBy_loadFunction _ _).seq fun _ _ => ?_
  refine (app.endsBy_loadFunction _ _).seq fun _ _ => ?_
  refine (endsBy_step_unit (app.services.sockets app.startModel)).seq fun _ _ => ?_
  rw [← List.append_nil (app.optionalChecks .payloadType _)]
  exact app.endsBy_loadBootstrapPayloadType.seq fun _ _ => Checked.ok _

variable {app} {response : Except PyExc ByteArray} {prepared : Prepared α}
  {resolved : Resolved O X F} {model : NexusConfigurationModel O} {payload runtime : α}
  {reader : AlgorithmPayloadReader α}

theorem object_of_locateRequired {imports : Imports} {path message : String} {object : Object}
    (h : imports.locateRequired path message = .ok object) : object = objectAt path := by
  have hlocate := locate_of_locateRequired h
  unfold Imports.locate at hlocate
  unfold objectAt
  cases hlookup : imports.lookup path with
  | empty =>
    rw [hlookup] at hlocate
    rw [if_pos ((imports.lookup_eq_empty path).mp hlookup)]
    exact (Option.some.inj (Except.ok.inj hlocate)).symm
  | missing =>
    rw [hlookup] at hlocate
    cases hlocate
  | broken =>
    rw [hlookup] at hlocate
    cases hlocate
  | present =>
    have hset : path ≠ "" := fun hempty => by
      rw [(imports.lookup_eq_empty path).mpr hempty] at hlookup
      cases hlookup
    rw [hlookup] at hlocate
    rw [if_neg hset]
    exact (Option.some.inj (Except.ok.inj hlocate)).symm

theorem functionAt_of_loadFunction {description path : String} {function : Option Object}
    (h : app.loadFunction description path = .ok function) : function = functionAt path := by
  unfold loadFunction at h
  unfold functionAt
  split at h
  · next hpath =>
    rw [if_pos hpath]
    exact (Except.ok.inj h).symm
  · next hpath =>
    obtain ⟨object, hobject, rfl⟩ := of_map_eq_ok h
    rw [if_neg hpath, object_of_locateRequired hobject, objectAt, if_neg hpath]

theorem eq_payloadTypeAt_of_load {typeName : String} {payloadType : PayloadType α}
    (h : app.loadPayloadType typeName = .ok payloadType) :
    payloadType = app.payloadTypeAt typeName := by
  unfold loadPayloadType at h
  split at h
  · cases h
  · obtain ⟨_, -, h⟩ := bind_eq_ok.mp h
    exact (Except.ok.inj h).symm

theorem bootstrapType_of_load {payloadType : Option (PayloadType α)}
    (h : app.loadBootstrapPayloadType = .ok payloadType) : payloadType = app.bootstrapType := by
  unfold loadBootstrapPayloadType at h
  unfold bootstrapType
  split at h
  · next hname =>
    rw [if_pos hname]
    exact (Except.ok.inj h).symm
  · next hname =>
    obtain ⟨payloadType, hload, rfl⟩ := of_map_eq_ok h
    rw [if_neg hname, eq_payloadTypeAt_of_load hload]

/-- What `bootstrap` has loaded before it reads the payload is given by the settings. -/
theorem eq_loaded_of_prepare (h : app.prepare = .ok prepared) : prepared = app.loaded := by
  obtain ⟨_, -, h⟩ := bind_eq_ok.mp h
  obtain ⟨_, -, h⟩ := bind_eq_ok.mp h
  obtain ⟨_, -, h⟩ := bind_eq_ok.mp h
  obtain ⟨_, -, h⟩ := bind_eq_ok.mp h
  obtain ⟨_, -, h⟩ := bind_eq_ok.mp h
  obtain ⟨logEnricher, henricher, h⟩ := bind_eq_ok.mp h
  obtain ⟨logTagger, hlogTagger, h⟩ := bind_eq_ok.mp h
  obtain ⟨metricTagger, hmetricTagger, h⟩ := bind_eq_ok.mp h
  obtain ⟨_, -, h⟩ := bind_eq_ok.mp h
  obtain ⟨payloadType, htype, h⟩ := bind_eq_ok.mp h
  rw [← Except.ok.inj h, functionAt_of_loadFunction henricher,
    functionAt_of_loadFunction hlogTagger, functionAt_of_loadFunction hmetricTagger,
    bootstrapType_of_load htype]
  rfl

/-! #### The payload and the algorithm -/

theorem endsBy_decompress (envelope : CompressedPayload) :
    EndsBy (envelope.decompress app.modules) (app.decompressChecks envelope) := by
  unfold CompressedPayload.decompress decompressChecks
  cases envelope.decompressionImportPath with
  | bytes b => rfl
  | other typeName => rfl
  | str path =>
    refine (endsBy_step (app.modules.locate path)).bind fun found _ => ?_
    cases found with
    | none => rfl
    | some decompressionFunction =>
      simp only
      cases b64decode envelope.content with
      | error e => rfl
      | ok compressedBytes => exact endsBy_step (decompressionFunction compressedBytes)

theorem endsBy_payloadData (body : ByteArray) :
    EndsBy (payloadData app.modules body)
      (following (app.modules.compressedFromJson (.bytes body)) app.decompressChecks) := by
  unfold payloadData
  cases app.modules.compressedFromJson (.bytes body) with
  | error e => exact Checked.ok _
  | ok envelope => exact endsBy_decompress envelope

variable (app) in
/-- What the reader makes of a body. -/
def parsedBody (body : ByteArray) : Except PyExc (α × AlgorithmPayloadReader α) := do
  let data ← payloadData app.modules body
  let text ← app.savedText body
  match app.readType.fromJson data with
  | .ok payload => return (payload, ⟨app.readType, app.savesContent, some payload, text, none⟩)
  | .error e =>
    app.loaded.parsedTypeName.bind fun name => .error (.raisedFrom fatalStartupConfigurationError
      s!"Unable to parse bootstrap payload from {app.sasUri} into {name}" e)

theorem parsedPayload_of_readPayload {body : ByteArray}
    (h : app.readPayload app.loaded response =
      app.getPayload app.readType app.savesContent (.ok body)) :
    app.parsedPayload app.loaded response = app.parsedBody body := by
  unfold parsedPayload parsedBody savedText
  rw [h, getPayload, aenter_eq]
  cases payloadData app.modules body with
  | error e => rfl
  | ok data =>
    cases hsave : app.savesContent with
    | false =>
      simp only [Except.bind, init, tryParse, bind]
      cases app.readType.fromJson data <;> rfl
    | true =>
      simp only [Except.bind, init, tryParse, bind]
      cases decodeUtf8 body with
      | error e => rfl
      | ok text => cases app.readType.fromJson data <;> rfl

theorem endsBy_savedText (body : ByteArray) :
    EndsBy (app.savedText body)
      (if app.savesContent then [.step (ended (decodeUtf8 body))] else []) := by
  unfold savedText
  split
  · exact (endsBy_step (decodeUtf8 body)).map some
  · exact Checked.ok _

theorem endsBy_parsedBody (body : ByteArray) :
    EndsBy (app.parsedBody body) (app.bodyChecks body) := by
  unfold parsedBody bodyChecks
  rw [List.append_assoc]
  refine (endsBy_payloadData body).seq fun data hdata => ?_
  refine (endsBy_savedText body).seq fun text _ => ?_
  rw [hdata]
  simp only [following, parseCheck, loaded, Prepared.parsedTypeName]
  refine Checked.single ?_
  cases app.bootstrapType with
  | none => cases app.readType.fromJson data <;> rfl
  | some bootstrapType => cases app.readType.fromJson data <;> rfl

variable (app) in
def loadReadType : Except PyExc (PayloadType α) :=
  match app.bootstrapType with
  | some bootstrapType => .ok bootstrapType
  | none => app.loadPayloadType app.startModel.runtime.payload.typeName

theorem endsBy_loadReadType : EndsBy app.loadReadType app.readTypeChecks := by
  unfold loadReadType readTypeChecks
  cases app.bootstrapType with
  | some bootstrapType => exact Checked.ok _
  | none => exact app.endsBy_loadPayloadType _

theorem parsedPayload_eq (response : Except PyExc ByteArray) :
    app.parsedPayload app.loaded response = (do
      let _ ← app.loadReadType
      let body ← response
      app.parsedBody body) := by
  cases response with
  | error e =>
    unfold parsedPayload readPayload loadReadType loaded
    cases app.bootstrapType with
    | some bootstrapType => rfl
    | none => cases app.loadPayloadType app.startModel.runtime.payload.typeName <;> rfl
  | ok body =>
    unfold loadReadType
    cases htype : app.bootstrapType with
    | some bootstrapType =>
      refine parsedPayload_of_readPayload ?_
      simp only [readPayload, loaded, htype, readType, savesContent]
      rfl
    | none =>
      cases hload : app.loadPayloadType app.startModel.runtime.payload.typeName with
      | error e =>
        simp only [parsedPayload, readPayload, loaded, htype, hload]
        rfl
      | ok payloadType =>
        refine parsedPayload_of_readPayload ?_
        obtain rfl := eq_payloadTypeAt_of_load hload
        simp only [readPayload, loaded, htype, hload, readType, savesContent]
        rfl

theorem endsBy_parsedPayload (response : Except PyExc ByteArray) :
    EndsBy (app.parsedPayload app.loaded response) (app.payloadChecks response) := by
  rw [parsedPayload_eq, payloadChecks, List.append_assoc]
  refine endsBy_loadReadType.seq fun _ _ => ?_
  exact (endsBy_step response).bind fun body _ => endsBy_parsedBody body

/-- A payload that was read is what `from_json` returned, and its text is kept. -/
theorem of_parsedPayload (h : app.parsedPayload app.loaded response = .ok (payload, reader)) :
    app.parsed response = .ok payload ∧ ∃ body text, response = .ok body ∧
      app.savedText body = .ok text ∧
      reader = ⟨app.readType, app.savesContent, some payload, text, none⟩ := by
  rw [parsedPayload_eq] at h
  obtain ⟨_, -, hread⟩ := bind_eq_ok.mp h
  obtain ⟨body, rfl, hbody⟩ := bind_eq_ok.mp hread
  obtain ⟨data, hdata, hbody⟩ := bind_eq_ok.mp hbody
  obtain ⟨text, htext, hbody⟩ := bind_eq_ok.mp hbody
  cases hjson : app.readType.fromJson data with
  | error e =>
    rw [hjson] at hbody
    cases hname : app.loaded.parsedTypeName with
    | error e =>
      rw [hname] at hbody
      cases hbody
    | ok name =>
      rw [hname] at hbody
      cases hbody
  | ok payload' =>
    rw [hjson] at hbody
    obtain ⟨rfl, rfl⟩ := Prod.mk.inj (Except.ok.inj hbody)
    refine ⟨?_, body, text, rfl, htext, rfl⟩
    simp only [parsed, bind, Except.bind, hdata, hjson]

theorem endsBy_loadAlgorithm (algorithm : String) (configModel : Option String) :
    EndsBy (app.loadAlgorithm algorithm configModel) (app.loadChecks algorithm configModel) := by
  have halias (message : String) :
      EndsBy (app.imports.locateRequired algorithm message >>= app.aliasOf)
        ([app.pathCheck .algorithm algorithm] ++
          [.step ((app.services.algorithmAlias algorithm).map fun _ => ())]) := by
    unfold EndsBy Checked pathCheck Imports.locateRequired Imports.locate
    cases app.imports.lookup algorithm with
    | empty => rfl
    | missing => rfl
    | broken => rfl
    | present => exact endsBy_step (app.services.algorithmAlias algorithm)
  unfold loadAlgorithm loadChecks
  rw [← bind_assoc]
  refine (halias _).seq fun name _ => ?_
  cases configModel with
  | none => exact Checked.ok _
  | some path =>
    rw [← List.append_nil ((some path).toList.map _)]
    exact (endsBy_locateRequired rfl rfl rfl app.imports path _).seq fun _ _ => Checked.ok _

theorem resolveAlgorithm_eq (payload : α) :
    app.resolveAlgorithm payload = (do
      let (algorithm, configModel) ← app.algorithmFor payload
      app.loadAlgorithm algorithm configModel) := by
  unfold resolveAlgorithm algorithmFor
  cases app.algorithmResolver <;> rfl

theorem endsBy_resolveAlgorithm (payload : α) :
    EndsBy (app.resolveAlgorithm payload) (app.algorithmChecks payload) := by
  rw [resolveAlgorithm_eq]
  exact (endsBy_step (app.algorithmFor payload)).bind
    fun (algorithm, configModel) _ => app.endsBy_loadAlgorithm algorithm configModel

theorem aliasOf_of_locateRequired {path message : String} {object : Object} {name : String}
    (hlocate : app.imports.locateRequired path message = .ok object)
    (hname : app.aliasOf object = .ok name) : app.services.algorithmAlias path = .ok name := by
  obtain rfl := object_of_locateRequired hlocate
  unfold objectAt at hname
  split at hname
  · cases hname
  · exact hname

theorem resolution_of_resolveAlgorithm (h : app.resolveAlgorithm payload = .ok resolved) :
    app.resolution payload = .ok resolved := by
  rw [resolveAlgorithm_eq] at h
  obtain ⟨⟨algorithm, configModel⟩, halgorithm, h⟩ := bind_eq_ok.mp h
  obtain ⟨object, hobject, h⟩ := bind_eq_ok.mp h
  obtain ⟨name, hname, h⟩ := bind_eq_ok.mp h
  unfold resolution
  rw [halgorithm]
  simp only [bind, Except.bind, aliasOf_of_locateRequired hobject hname]
  cases configModel with
  | none => exact h
  | some path =>
    obtain ⟨customModel, hcustom, h⟩ := bind_eq_ok.mp h
    obtain rfl := object_of_locateRequired hcustom
    exact h

/-- The text that is morphed is the one that was kept. -/
theorem morphed_eq {bootstrapType : PayloadType α} (resolved : Resolved O X F)
    (htype : app.bootstrapType = some bootstrapType)
    (hparse : app.parsedPayload app.loaded response = .ok (payload, reader)) :
    ∃ text, reader.payloadStr = some text ∧ app.morphed response resolved payload =
      (app.payloadTypeAt resolved.config.default.base.runtime.payload.typeName).fromJson
        (.str text) := by
  obtain ⟨-, body, kept, rfl, hkept, rfl⟩ := of_parsedPayload hparse
  rw [savedText, savesContent, htype] at hkept
  obtain ⟨text, htext, rfl⟩ := of_map_eq_ok hkept
  refine ⟨text, rfl, ?_⟩
  simp only [morphed, htype, htext, bind, Except.bind]

/-- The end of `runtimePayload` in the flow with a bootstrap type. -/
theorem runtimePayload_eq {bootstrapType : PayloadType α} (resolved : Resolved O X F)
    (htype : app.bootstrapType = some bootstrapType)
    (hparse : app.parsedPayload app.loaded response = .ok (payload, reader)) :
    ∃ message, app.runtimePayload app.loaded resolved payload reader = (do
      let _ ← app.loadPayloadType resolved.config.default.base.runtime.payload.typeName
      let runtime ← (app.morphed response resolved payload).mapError
        (.raisedFrom fatalStartupConfigurationError message)
      .ok (.fromRuntimeConfiguration resolved.config, runtime)) := by
  let typeName := resolved.config.default.base.runtime.payload.typeName
  obtain ⟨text, htext, hmorphed⟩ := morphed_eq resolved htype hparse
  refine ⟨
    s!"Failed to morph bootstrap payload of class {bootstrapType.name} into runtime payload " ++
      s!"of class {(app.payloadTypeAt typeName).name}", ?_⟩
  unfold runtimePayload loaded
  rw [htype, hmorphed]
  simp only [NexusConfigurationModel.fromRuntimeConfiguration]
  cases hload : app.loadPayloadType typeName with
  | error e => rfl
  | ok payloadType =>
    obtain rfl := eq_payloadTypeAt_of_load hload
    simp only [bind, Except.bind, morph, htext]
    cases (app.payloadTypeAt typeName).fromJson (.str text) <;> rfl

theorem endsBy_runtimePayload (resolved : Resolved O X F)
    (hparse : app.parsedPayload app.loaded response = .ok (payload, reader)) :
    EndsBy (app.runtimePayload app.loaded resolved payload reader)
      (app.runtimeChecks response resolved payload) := by
  unfold runtimeChecks
  cases htype : app.bootstrapType with
  | none =>
    rw [runtimePayload, loaded, htype]
    exact Checked.ok _
  | some bootstrapType =>
    obtain ⟨message, hruntime⟩ := runtimePayload_eq resolved htype hparse
    rw [hruntime]
    refine (app.endsBy_loadPayloadType _).seq fun _ _ => ?_
    refine Checked.single ?_
    cases app.morphed response resolved payload <;> rfl

theorem morphed_of_runtimePayload
    (hparse : app.parsedPayload app.loaded response = .ok (payload, reader))
    (h : app.runtimePayload app.loaded resolved payload reader = .ok (model, runtime)) :
    app.morphed response resolved payload = .ok runtime := by
  cases htype : app.bootstrapType with
  | none =>
    rw [runtimePayload, loaded, htype] at h
    rw [morphed, htype, (Prod.mk.inj (Except.ok.inj h)).2]
  | some bootstrapType =>
    obtain ⟨message, hruntime⟩ := runtimePayload_eq resolved htype hparse
    rw [hruntime] at h
    obtain ⟨_, -, h⟩ := bind_eq_ok.mp h
    obtain ⟨runtime', hmorphed, h⟩ := bind_eq_ok.mp h
    obtain rfl := (Prod.mk.inj (Except.ok.inj h)).2
    exact Traced.mapError_eq_ok_iff.mp hmorphed

/-! #### The services -/

theorem clientFactory_of_loadFactory (additionalFactory : AdditionalFactorySettings)
    (factory : ClientFactory) (h : app.loadFactory additionalFactory = .ok factory) :
    factory = additionalFactory.clientFactory := by
  obtain ⟨factoryClass, hfactory, h⟩ := bind_eq_ok.mp h
  obtain ⟨clientClass, hclient, h⟩ := bind_eq_ok.mp h
  obtain rfl := Except.ok.inj h
  rw [object_of_locateRequired hfactory, object_of_locateRequired hclient]
  rfl

theorem endsBy_loadFactory (additionalFactory : AdditionalFactorySettings) :
    EndsBy (app.loadFactory additionalFactory) (app.loadFactoryChecks additionalFactory) := by
  unfold loadFactoryChecks
  refine (endsBy_locateRequired rfl rfl rfl app.imports _ _).seq fun factoryClass _ => ?_
  rw [← List.append_nil [app.pathCheck .client _]]
  exact (endsBy_locateRequired rfl rfl rfl app.imports _ _).seq fun clientClass _ => Checked.ok _

/-- The handler of `_bind_clients` ends in a startup error, if the factory has a name. -/
theorem endsBy_handle {factory : ClientFactory}
    (hnamed : ∀ clientClass, factory ≠ .additional clientClass .builtins)
    (x : Traced (BootEvent O) PyExc Unit) :
    EndsBy (x.handle fun e => .raise (activationError factory e)).outcome [.guarded x.outcome] := by
  refine Checked.single ?_
  obtain ⟨events, outcome⟩ := x
  cases outcome with
  | ok _ => rfl
  | error e =>
    change _ = some (isStartupError (activationError factory e))
    unfold activationError
    cases hstartup : e.isInstance fatalStartupConfigurationError with
    | true => exact congrArg some hstartup.symm
    | false =>
      cases factory with
      | storageClient => rfl
      | trinoClient => rfl
      | mlflowClient => rfl
      | additional clientClass factoryClass =>
        cases factoryClass with
        | builtins => exact absurd rfl (hnamed clientClass)
        | named path => rfl

theorem endsBy_activateFactory (model : NexusConfigurationModel O) (payload : α)
    (factory : ClientFactory) :
    EndsBy (app.activateFactory model payload factory).outcome
      (app.activateChecks model payload factory) := by
  cases factory with
  | storageClient =>
    refine (endsBy_handle (fun _ h => by cases h) _).trans ?_
    change [Check.guarded (app.getStorageClient model)].findSome? Check.failure = _
    unfold activateChecks pathCheck getStorageClient Imports.locate
    cases app.imports.lookup model.result.storageClientClass with
    | empty => rfl
    | missing => rfl
    | broken => rfl
    | present =>
      simp only [bind, Except.bind]
      cases app.services.forStoragePath model.result.storageClientClass
        model.result.outputPath <;> rfl
  | trinoClient => exact endsBy_handle (fun _ h => by cases h) _
  | mlflowClient => exact endsBy_handle (fun _ h => by cases h) _
  | additional clientClass factoryClass =>
    cases factoryClass with
    | builtins => rfl
    | named path =>
      refine (endsBy_handle (fun _ h => by cases h) _).trans ?_
      have houtcome :
          (app.getClient model payload (.additional clientClass (.named path))).outcome =
            (app.services.getClient path model payload).bind fun _ =>
              app.services.bindClient clientClass := by
        unfold getClient
        simp only [Traced.outcome_bind]
        rfl
      simp only [houtcome, activateChecks]
      cases app.services.getClient path model payload with
      | error e => rfl
      | ok _ => cases app.services.bindClient clientClass <;> rfl

theorem endsBy_bindClients (model : NexusConfigurationModel O) (payload : α) :
    EndsBy (app.bindClients model payload).outcome (app.clientChecks model payload) := by
  unfold bindClients clientChecks
  rw [Traced.outcome_bind]
  refine (Checked.mapM fun additionalFactory _ => app.endsBy_loadFactory additionalFactory).seq
    fun additional hadditional => ?_
  rw [eq_map_of_mapM app.clientFactory_of_loadFactory hadditional, Traced.outcome_forM]
  exact Checked.forM fun factory _ => app.endsBy_activateFactory model payload factory

theorem endsBy_createProvider (config : NexusRuntimeConfiguration O X F) :
    EndsBy (app.createProvider config)
      [app.pathCheck .metricsProvider config.default.base.metricsProvider,
        .caught (app.services.metricsProvider config.default.base.metricsProvider config)] := by
  unfold createProvider pathCheck Imports.locate
  cases app.imports.lookup config.default.base.metricsProvider with
  | empty => rfl
  | missing => rfl
  | broken => rfl
  | present => exact endsBy_fatalOnException _ _

theorem endsBy_callFunction (model : NexusConfigurationModel O) (payload : α) (path : String) :
    EndsBy (app.callFunction payload model (functionAt path))
      (app.functionChecks model payload path) := by
  unfold functionAt functionChecks
  split
  · exact Checked.ok ()
  · exact endsBy_step_unit _

theorem endsBy_bindObservability (config : NexusRuntimeConfiguration O X F)
    (model : NexusConfigurationModel O) (payload : α) :
    EndsBy (app.bindObservability app.loaded config model payload)
      (app.observabilityChecks config model payload) := by
  unfold observabilityChecks
  simp only [List.append_assoc]
  refine (app.endsBy_callFunction model payload _).seq fun _ _ => ?_
  refine (app.endsBy_callFunction model payload _).seq fun _ _ => ?_
  refine (app.endsBy_callFunction model payload _).seq fun _ _ => ?_
  exact (endsBy_step_unit _).seq fun _ _ => app.endsBy_createProvider config

theorem endsBy_recordPayload (model : NexusConfigurationModel O) (hexc : reader.readExc = none) :
    EndsBy (app.recordPayload model reader).outcome (app.recordingChecks model) := by
  unfold recordPayload recordingChecks
  by_cases halways : model.runtime.payload.serializationMode = "always"
  · simp only [halways, hexc, or_true, if_pos]
    cases hrecorder : app.services.telemetryRecorder model with
    | error e => rfl
    | ok _ => cases app.services.payloadRecorder <;> rfl
  · rw [if_neg halways]
    by_cases hfailure : model.runtime.payload.serializationMode = "on_failure"
    · simp only [hfailure, hexc, true_or, if_pos]
      cases app.services.telemetryRecorder model <;> rfl
    · rw [if_neg hfailure, if_neg (by simp [halways, hfailure])]
      exact Checked.ok ()

theorem endsBy_bindConfiguration (resolved : Resolved O X F) (model : NexusConfigurationModel O) :
    EndsBy (app.bindConfiguration resolved model) (app.configurationChecks resolved) := by
  unfold bindConfiguration configurationChecks
  cases resolved.configurationModel with
  | none => exact Checked.ok _
  | some customModel =>
    cases customModel with
    | builtins => rfl
    | named path =>
      rw [← List.append_nil [_]]
      exact (endsBy_step_unit _).seq fun _ _ => Checked.ok _

theorem endsBy_bindServices (resolved : Resolved O X F) (model : NexusConfigurationModel O)
    (payload : α) (hexc : reader.readExc = none) :
    EndsBy (app.bindServices app.loaded resolved model payload reader).outcome
      (app.serviceChecks resolved model payload) := by
  unfold bindServices serviceChecks
  simp only [List.append_assoc, Traced.outcome_bind]
  refine (app.endsBy_bindClients model payload).seq fun _ _ => ?_
  refine (app.endsBy_bindObservability resolved.config model payload).seq fun _ _ => ?_
  refine (app.endsBy_recordPayload model hexc).seq fun _ _ => ?_
  refine (endsBy_step_unit _).seq fun _ _ => ?_
  exact app.endsBy_bindConfiguration resolved model

theorem endsBy_untilBound {β : Type} (response : Except PyExc ByteArray)
    {rest : Prepared α → Resolved O X F → NexusConfigurationModel O → α →
      AlgorithmPayloadReader α → Except PyExc β}
    {restChecks : Resolved O X F → NexusConfigurationModel O → α → List Check}
    (hrest : ∀ resolved model runtime reader, reader.readExc = none →
      EndsBy (rest app.loaded resolved model runtime reader)
        (restChecks resolved model runtime)) :
    EndsBy (app.untilBound response rest) (app.checksUntilBound response restChecks) := by
  unfold untilBound checksUntilBound
  simp only [List.append_assoc]
  refine app.endsBy_prepare.seq fun prepared hprepare => ?_
  obtain rfl := eq_loaded_of_prepare hprepare
  refine (endsBy_parsedPayload response).seq fun (payload, reader) hparse => ?_
  obtain ⟨hparsed, hreader⟩ := of_parsedPayload hparse
  rw [hparsed, following]
  refine (endsBy_resolveAlgorithm payload).seq fun resolved hresolve => ?_
  rw [resolution_of_resolveAlgorithm hresolve, following]
  refine (endsBy_runtimePayload resolved hparse).seq fun (model, runtime) hruntime => ?_
  rw [morphed_of_runtimePayload hparse hruntime, following, ← snapshot_of_runtimePayload hruntime]
  obtain ⟨_, _, -, -, rfl⟩ := hreader
  exact hrest resolved model runtime _ rfl

theorem outcome_bootstrap (response : Except PyExc ByteArray) :
    (app.bootstrap response).outcome = app.untilBound response
      fun prepared resolved model runtime reader =>
        (app.bindServices prepared resolved model runtime reader).outcome := by
  unfold bootstrap
  simp only [Traced.outcome_bind]
  rfl

/-- `bootstrap` ends as the first of its checks that does not pass. -/
theorem endsBy_bootstrap (response : Except PyExc ByteArray) :
    EndsBy (app.bootstrap response).outcome (app.checks response) := by
  rw [outcome_bootstrap]
  exact app.endsBy_untilBound response fun resolved model runtime _ hexc =>
    app.endsBy_bindServices resolved model runtime hexc

end Application

end NexusSdk.Core
