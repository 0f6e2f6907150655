import NexusSdk.Core.StartupChecks

/-! Which misconfigured import paths end in a startup error. -/

namespace NexusSdk.Core

open Lib Input

namespace Application

variable {α O X F : Type} (app : Application α O X F)

/-! ### The required paths -/

/-- The configuration with the extension of the algorithm, if the algorithm is resolved. -/
def configurationFor (response : Except PyExc ByteArray) : NexusRuntimeConfiguration O X F :=
  match (app.parsed response >>= app.resolution).toOption with
  | some resolved => resolved.config
  | none => app.config

/-- The snapshot of the configuration that the clients get. -/
def modelFor (response : Except PyExc ByteArray) : NexusConfigurationModel O :=
  match app.bootstrapType with
  | none => app.startModel
  | some _ => .fromRuntimeConfiguration (app.configurationFor response)

/-- The functions and the bootstrap type, where they are set. -/
def optionalPaths : List (ImportPath × String) :=
  let runtime := app.startModel.runtime
  [(ImportPath.function, runtime.logEnrichmentFunction), (.function, runtime.logTaggingFunction),
    (.function, runtime.metricTaggingFunction),
    (.payloadType, runtime.payload.bootstrapTypeName)].filter fun required => required.2 ≠ ""

def preparedPaths : List (ImportPath × String) :=
  let start := app.startModel
  (start.result.serializers ++ start.telemetrySerializers).map (.serializer, ·) ++
    start.runtime.scopedExceptions.map (fun errorMapConfig =>
      (.errorTarget, errorMapConfig.target)) ++
    [(.errorDefault, start.runtime.globalDefault)] ++
    start.runtime.additionalModules.map (.module, ·) ++ app.optionalPaths

/-- The required paths, with what each of them is for. -/
def requiredPaths (response : Except PyExc ByteArray) : List (ImportPath × String) :=
  let model := app.modelFor response
  app.preparedPaths ++ [(.payloadType, model.runtime.payload.typeName)] ++
    (if app.algorithmResolver.isNone then [(.algorithm, app.startModel.runtime.algorithm)]
      else []) ++
    model.runtime.additionalFactories.flatMap (fun additionalFactory =>
      [(.factory, additionalFactory.factoryClass), (.client, additionalFactory.clientClass)]) ++
    [(.storageClient, model.result.storageClientClass),
      (.metricsProvider, (app.configurationFor response).default.base.metricsProvider)]

/-- A required path is empty, missing or fails while being imported. -/
def Misconfigured (response : Except PyExc ByteArray) : Prop :=
  ∃ required ∈ app.requiredPaths response, app.imports.lookup required.2 ≠ .present

def EndsFatal (response : Except PyExc ByteArray) : Prop :=
  ∃ e, (app.bootstrap response).outcome = .error e ∧ isStartupError e = true

/-- Some misconfigured path is not overlooked. -/
def Noticed (response : Except PyExc ByteArray) : Prop :=
  ∃ required ∈ app.requiredPaths response,
    required.1.answer (app.imports.lookup required.2) ≠ none

/-- What is let through comes after a startup error, and something is noticed, or reported as a
startup error. -/
structure ReportsFaults (response : Except PyExc ByteArray) : Prop where
  letThrough : ∀ front check rest, app.checks response = front ++ check :: rest →
    check.failure = some false → ∃ earlier ∈ front, earlier.failure = some true
  noticed : app.Noticed response ∨ ∃ check ∈ app.checks response, check.failure = some true

/-! ### Every required path is looked up -/

variable {response : Except PyExc ByteArray} {required : ImportPath × String}

theorem mem_optionalChecks (kind : ImportPath) {path : String} (hset : path ≠ "") :
    app.pathCheck kind path ∈ app.optionalChecks kind path := by
  rw [optionalChecks, if_neg hset]
  exact List.mem_singleton_self _

theorem mem_serializerChecks {serializers : List String} {serializerClass : String}
    (h : serializerClass ∈ serializers) :
    app.pathCheck .serializer serializerClass ∈ app.serializerChecks serializers :=
  List.mem_flatMap.mpr ⟨serializerClass, h, List.mem_cons_self⟩

theorem mem_clientChecks {model : NexusConfigurationModel O}
    {additionalFactory : AdditionalFactorySettings} (payload : α)
    (h : additionalFactory ∈ model.runtime.additionalFactories)
    (hrequired : required ∈ [(ImportPath.factory, additionalFactory.factoryClass),
      (ImportPath.client, additionalFactory.clientClass)]) :
    app.pathCheck required.1 required.2 ∈ app.clientChecks model payload := by
  refine List.mem_append_left _ (List.mem_flatMap.mpr ⟨additionalFactory, h, ?_⟩)
  simp only [List.mem_cons, List.not_mem_nil, or_false] at hrequired
  rcases hrequired with rfl | rfl
  · exact List.mem_append_left _ (List.mem_singleton_self _)
  · exact List.mem_append_right _ (List.mem_singleton_self _)

theorem storageClient_mem_clientChecks (model : NexusConfigurationModel O) (payload : α) :
    app.pathCheck .storageClient model.result.storageClientClass ∈
      app.clientChecks model payload := by
  refine List.mem_append_right _ (List.mem_flatMap.mpr ⟨.storageClient, ?_, List.mem_cons_self⟩)
  exact List.mem_append_left _ (List.mem_append_left _ List.mem_cons_self)

theorem metricsProvider_mem_observabilityChecks (config : NexusRuntimeConfiguration O X F)
    (model : NexusConfigurationModel O) (payload : α) :
    app.pathCheck .metricsProvider config.default.base.metricsProvider ∈
      app.observabilityChecks config model payload :=
  List.mem_append_right _ List.mem_cons_self

theorem mem_algorithmChecks (payload : α)
    (h : required ∈ if app.algorithmResolver.isNone
      then [(ImportPath.algorithm, app.startModel.runtime.algorithm)] else []) :
    app.pathCheck required.1 required.2 ∈ app.algorithmChecks payload := by
  unfold algorithmChecks algorithmFor
  cases hresolver : app.algorithmResolver with
  | none =>
    rw [hresolver] at h
    obtain rfl := List.mem_singleton.mp h
    exact List.mem_append_right _ (List.mem_append_left _ List.mem_cons_self)
  | some resolver =>
    rw [hresolver] at h
    cases h

variable {app}

theorem mem_prepareChecks_of_optional (h : required ∈ app.optionalPaths) :
    app.pathCheck required.1 required.2 ∈ app.prepareChecks := by
  obtain ⟨hmem, hset⟩ := List.mem_filter.mp h
  have hoptional := app.mem_optionalChecks required.1 (of_decide_eq_true hset)
  simp only [List.mem_cons, List.not_mem_nil, or_false] at hmem
  simp only [prepareChecks, List.mem_append]
  rcases hmem with rfl | rfl | rfl | rfl
  · tauto
  · tauto
  · tauto
  · tauto

theorem mem_prepareChecks (h : required ∈ app.preparedPaths) :
    app.pathCheck required.1 required.2 ∈ app.prepareChecks := by
  simp only [preparedPaths, List.mem_append, List.mem_map, List.mem_singleton] at h
  rcases h with (((⟨path, hpath, rfl⟩ | ⟨s, hs, rfl⟩) | rfl) | ⟨path, hpath, rfl⟩) | h
  · simp only [prepareChecks, List.mem_append]
    rcases hpath with hpath | hpath
    · have := app.mem_serializerChecks hpath
      tauto
    · have := app.mem_serializerChecks hpath
      tauto
  · have : app.pathCheck .errorTarget s.target ∈ app.cacheChecks :=
      List.mem_append_left _ (List.mem_flatMap.mpr ⟨s, hs, List.mem_singleton_self _⟩)
    simp only [prepareChecks, List.mem_append]
    tauto
  · have : app.pathCheck .errorDefault app.startModel.runtime.globalDefault ∈ app.cacheChecks :=
      List.mem_append_right _ (List.mem_singleton_self _)
    simp only [prepareChecks, List.mem_append]
    tauto
  · have : app.pathCheck .module path ∈ app.moduleChecks :=
      List.mem_flatMap.mpr ⟨path, hpath, List.mem_cons_self⟩
    simp only [prepareChecks, List.mem_append]
    tauto
  · exact mem_prepareChecks_of_optional h

/-- The runtime type is the one that is read or the one into which the payload is morphed. -/
theorem mem_payloadTypeChecks {resolved : Resolved O X F}
    (hconfig : app.configurationFor response = resolved.config) (payload : α) :
    let typeName := (app.modelFor response).runtime.payload.typeName
    app.pathCheck .payloadType typeName ∈ app.payloadChecks response ∨
      app.pathCheck .payloadType typeName ∈ app.runtimeChecks response resolved payload := by
  unfold payloadChecks readTypeChecks runtimeChecks modelFor
  cases app.bootstrapType with
  | none => exact .inl (List.mem_append_left _ (List.mem_append_left _ List.mem_cons_self))
  | some bootstrapType =>
    rw [hconfig]
    exact .inr (List.mem_append_left _ List.mem_cons_self)

/-- The checks, if all stages up to the binding of the payload return. -/
theorem checks_of_returns {injector : Injector O X F}
    (h : (app.bootstrap response).outcome = .ok injector) :
    ∃ payload resolved runtime, app.configurationFor response = resolved.config ∧
      app.checks response = app.prepareChecks ++ app.payloadChecks response ++
        (app.algorithmChecks payload ++ (app.runtimeChecks response resolved payload ++
          app.serviceChecks resolved (app.modelFor response) runtime)) := by
  obtain ⟨prepared, payload, reader, resolved, model, runtime, hbinds⟩ := exists_binds h
  obtain rfl := eq_loaded_of_prepare hbinds.prepare
  have hparsed := (of_parsedPayload hbinds.parse).1
  have hresolution := resolution_of_resolveAlgorithm hbinds.resolve
  have hmorphed := morphed_of_runtimePayload hbinds.parse hbinds.bound
  have hconfig : app.configurationFor response = resolved.config := by
    simp only [configurationFor, hparsed, bind, Except.bind, hresolution, Except.toOption]
  have hmodel : app.modelFor response = app.snapshot app.loaded resolved := by
    rw [modelFor, hconfig]
    rfl
  refine ⟨payload, resolved, runtime, hconfig, ?_⟩
  rw [checks, checksUntilBound, hparsed, hmodel]
  simp only [following, hresolution, hmorphed]

/-- If nothing fails, every required path has been looked up. -/
theorem mem_checks_of_returns {injector : Injector O X F}
    (h : (app.bootstrap response).outcome = .ok injector)
    (hrequired : required ∈ app.requiredPaths response) :
    app.pathCheck required.1 required.2 ∈ app.checks response := by
  obtain ⟨payload, resolved, runtime, hconfig, hchecks⟩ := checks_of_returns h
  rw [hchecks]
  simp only [requiredPaths, List.mem_append, List.mem_singleton] at hrequired
  simp only [List.mem_append]
  rcases hrequired with (((hprepared | rfl) | halgorithm) | hfactory) | hlast
  · exact .inl (.inl (mem_prepareChecks hprepared))
  · rcases mem_payloadTypeChecks hconfig payload with hread | hmorph
    · exact .inl (.inr hread)
    · exact .inr (.inr (.inl hmorph))
  · exact .inr (.inl (app.mem_algorithmChecks payload halgorithm))
  · obtain ⟨additionalFactory, hmem, hrequired⟩ := List.mem_flatMap.mp hfactory
    have := app.mem_clientChecks runtime hmem hrequired
    simp only [serviceChecks, List.mem_append]
    tauto
  · simp only [List.mem_cons, List.not_mem_nil, or_false] at hlast
    simp only [serviceChecks, List.mem_append]
    rcases hlast with rfl | rfl
    · have := app.storageClient_mem_clientChecks (app.modelFor response) runtime
      tauto
    · rw [hconfig]
      have := app.metricsProvider_mem_observabilityChecks resolved.config
        (app.modelFor response) runtime
      tauto

/-! ### The main result -/

theorem endsFatal_iff (response : Except PyExc ByteArray) :
    app.EndsFatal response ↔ (app.checks response).findSome? Check.failure = some true := by
  have hends : ending isStartupError (app.bootstrap response).outcome =
      (app.checks response).findSome? Check.failure := app.endsBy_bootstrap response
  rw [← hends]
  constructor
  · rintro ⟨e, he, hstartup⟩
    rw [he]
    exact congrArg some hstartup
  · intro h
    cases houtcome : (app.bootstrap response).outcome with
    | ok injector =>
      rw [houtcome] at h
      cases h
    | error e =>
      rw [houtcome] at h
      exact ⟨e, houtcome, Option.some.inj h⟩

/-- Something fails if a misconfigured path is not overlooked. -/
theorem exists_failure_of_noticed (h : app.Noticed response) :
    ∃ check ∈ app.checks response, check.failure ≠ none := by
  obtain ⟨required, hrequired, hanswer⟩ := h
  by_contra hpass
  have hpasses : (app.checks response).findSome? Check.failure = none :=
    List.findSome?_eq_none_iff.mpr fun check hcheck => by
      by_contra hfails
      exact hpass ⟨check, hcheck, hfails⟩
  obtain ⟨injector, hinjector⟩ := (app.endsBy_bootstrap response).passes_iff.mp hpasses
  exact hpass ⟨_, mem_checks_of_returns hinjector hrequired, hanswer⟩

theorem endsFatal_iff_reportsFaults (response : Except PyExc ByteArray) :
    app.EndsFatal response ↔ app.ReportsFaults response := by
  rw [endsFatal_iff, findSome?_eq_true_iff]
  constructor
  · intro h
    have hfatal := findSome?_eq_true_iff.mpr h
    obtain ⟨check, hcheck, htrue⟩ := List.exists_of_findSome?_eq_some hfatal
    exact ⟨h.1, .inr ⟨check, hcheck, htrue⟩⟩
  · rintro ⟨hletThrough, hnoticed | ⟨check, hcheck, htrue⟩⟩
    · exact ⟨hletThrough, exists_failure_of_noticed hnoticed⟩
    · exact ⟨hletThrough, check, hcheck, htrue ▸ Option.some_ne_none true⟩

end Application

/-- An application whose algorithm module raises while it is imported. -/
def brokenAlgorithm : Application Nat Nat Unit Nat :=
  sampleApplication ["algorithms.Sample"]
    (sampleSettings "algorithms.Sample" ⟨"payloads.Any", "", "off"⟩) anyPayload [] rfl

end NexusSdk.Core
