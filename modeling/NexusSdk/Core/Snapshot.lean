import NexusSdk.Core.AppBootstrap

/-! Which settings the components see: the snapshot of the configuration with which `bootstrap`
works is taken before the extension of the algorithm is loaded, and taken again only for a morphed
payload. -/

namespace NexusSdk.Core

open Lib

variable {α O X F : Type}

/-- The bound model and those that were handed to the client factories have the base settings of the
live configuration. -/
structure SeesResolved (events : List (BootEvent O)) (injector : Injector O X F) : Prop where
  bound : injector.configurationModel = .fromRuntimeConfiguration injector.runtimeConfiguration
  handed : ∀ factory model, .getClient factory model ∈ events →
    model = .fromRuntimeConfiguration injector.runtimeConfiguration

namespace Application

variable {app : Application α O X F} {response : Except PyExc ByteArray}
  {model model' : NexusConfigurationModel O} {payload : α} {factory : ClientFactory}

theorem model_of_mem_bindClients
    (h : .getClient factory model' ∈ (app.bindClients model payload).events) : model' = model := by
  obtain ⟨factory', heq⟩ := mem_events_bindClients h
  exact (BootEvent.getClient.inj heq).2

/-- The storage client's factory comes first. -/
theorem mem_bindClients_of_ok (h : (app.bindClients model payload).outcome = .ok ()) :
    .getClient .storageClient model ∈ (app.bindClients model payload).events := by
  obtain ⟨additional, hadditional, -⟩ := Traced.outcome_bind_eq_ok.mp h
  refine Traced.mem_events_bind.mpr (.inr ⟨additional, hadditional, ?_⟩)
  refine Traced.mem_events_bind.mpr (.inl ?_)
  rw [activateFactory, Traced.events_handle_raise]
  exact Traced.mem_events_bind.mpr (.inl List.mem_cons_self)

/-- The recording of the payload is no call of a factory. -/
theorem not_mem_recordPayload (reader : Input.AlgorithmPayloadReader α) :
    .getClient factory model' ∉ (app.recordPayload model reader).events := by
  have hrecord (event : BootEvent O) (hevent : event ≠ .getClient factory model') (c : Bool) :
      .getClient factory model' ∉ (Traced.when c do
        .of app.services.payloadRecorder
        .emit event).events := by
    intro h
    rw [Traced.events_when] at h
    split at h
    · rcases Traced.mem_events_bind.mp h with h | ⟨_, _, h⟩
      · cases h
      · exact hevent (List.mem_singleton.mp h).symm
    · cases h
  intro h
  unfold recordPayload at h
  dsimp only at h
  split at h
  · rcases Traced.mem_events_bind.mp h with h | ⟨_, _, h⟩
    · cases h
    rcases Traced.mem_events_bind.mp h with h | ⟨_, _, h⟩
    · exact hrecord _ (fun heq => by cases heq) _ h
    · exact hrecord _ (fun heq => by cases heq) _ h
  · cases h

theorem configuration_of_bind {resolved : Resolved O X F} {injector : Injector O X F}
    (h : app.bindConfiguration resolved model = .ok injector) :
    injector.runtimeConfiguration = resolved.config ∧
      (injector.configurationModel = model ∨
        injector.configurationModel = .fromRuntimeConfiguration resolved.config) := by
  unfold bindConfiguration at h
  split at h
  · obtain rfl := Except.ok.inj h
    exact ⟨rfl, .inl rfl⟩
  · cases h
  · obtain ⟨-, -, h⟩ := bind_eq_ok.mp h
    obtain rfl := Except.ok.inj h
    exact ⟨rfl, .inr rfl⟩

/-- The components see the resolved configuration if the services get it. -/
theorem seesResolved_iff_model {prepared : Prepared α} {resolved : Resolved O X F}
    {reader : Input.AlgorithmPayloadReader α} {injector : Injector O X F}
    (h : (app.bindServices prepared resolved model payload reader).outcome = .ok injector) :
    SeesResolved (app.bindServices prepared resolved model payload reader).events injector ↔
      model = .fromRuntimeConfiguration resolved.config := by
  obtain ⟨_, hclients, hrest⟩ := Traced.outcome_bind_eq_ok.mp h
  obtain ⟨_, -, hrest⟩ := Traced.outcome_bind_eq_ok.mp hrest
  obtain ⟨_, -, hrest⟩ := Traced.outcome_bind_eq_ok.mp hrest
  obtain ⟨_, -, hbind⟩ := Traced.outcome_bind_eq_ok.mp hrest
  obtain ⟨hconfig, hmodel⟩ := configuration_of_bind hbind
  constructor
  · intro hsees
    rw [← hconfig]
    refine hsees.handed .storageClient model ?_
    exact Traced.mem_events_bind.mpr (.inl (mem_bindClients_of_ok hclients))
  · rintro rfl
    refine ⟨?_, fun factory model' hmem => ?_⟩
    · rw [hconfig]
      exact hmodel.elim id id
    · rw [hconfig]
      rcases Traced.mem_events_bind.mp hmem with hmem | ⟨_, _, hmem⟩
      · exact model_of_mem_bindClients hmem
      rcases Traced.mem_events_bind.mp hmem with hmem | ⟨_, _, hmem⟩
      · cases hmem
      rcases Traced.mem_events_bind.mp hmem with hmem | ⟨_, _, hmem⟩
      · exact absurd hmem (not_mem_recordPayload reader)
      rcases Traced.mem_events_bind.mp hmem with hmem | ⟨_, _, hmem⟩
      · cases hmem
      · cases hmem

end Application

open Application in
/-- When `bootstrap` returns, the components see the resolved configuration exactly if a bootstrap
payload type is configured or the extension of the algorithm changes no base setting. -/
theorem sees_resolved_iff {app : Application α O X F} {response : Except PyExc ByteArray}
    {injector : Injector O X F} (h : (app.bootstrap response).outcome = .ok injector) :
    SeesResolved (app.bootstrap response).events injector ↔
      app.startModel.runtime.payload.bootstrapTypeName ≠ "" ∨
        NexusConfigurationModel.fromRuntimeConfiguration (app.finalConfiguration response) =
          app.startModel := by
  obtain ⟨prepared, payload, reader, resolved, model, runtime, hbinds⟩ := exists_binds h
  rw [hbinds.bootstrap_eq] at h ⊢
  rw [seesResolved_iff_model h, hbinds.finalConfiguration_eq,
    snapshot_of_runtimePayload hbinds.bound, ← bootstrapPayloadType_of_prepare hbinds.prepare,
    snapshot]
  cases prepared.bootstrapPayloadType with
  | none => simp [eq_comm]
  | some _ => simp

/-- An application without a bootstrap payload type, whose algorithm has the given extensions. -/
def staticApplication (extensions : List Nat) : Application Nat Nat Unit Nat :=
  sampleApplication [] (sampleSettings "algorithms.Sample" ⟨"payloads.Any", "", "off"⟩) anyPayload
    extensions rfl

/-- The snapshot is taken again after the extension, for the morphed payload. -/
theorem sees_resolved_iff_bootstrapType :
    let app := sampleApplication []
      (sampleSettings "algorithms.Sample" ⟨"payloads.Any", "payloads.Any", "off"⟩) anyPayload [7] rfl
    ∃ injector, (app.bootstrap (.ok "1".toUTF8)).outcome = .ok injector ∧
      injector.configurationModel.others = 7 ∧
      SeesResolved (app.bootstrap (.ok "1".toUTF8)).events injector := by
  intro app
  let config := app.config.loadConfigExtension "sample"
  have hreturns : (app.bootstrap (.ok "1".toUTF8)).outcome =
      .ok ⟨.fromRuntimeConfiguration config, config⟩ := rfl
  exact ⟨_, hreturns, rfl, (sees_resolved_iff hreturns).mpr (.inl (by decide +kernel))⟩

/-- The storage client's factory and the binding get the settings from before the extension. -/
theorem extension_not_seen :
    ∃ injector, ((staticApplication [7]).bootstrap (.ok "1".toUTF8)).outcome = .ok injector ∧
      injector.configurationModel.others = 0 ∧
      (NexusConfigurationModel.fromRuntimeConfiguration injector.runtimeConfiguration).others = 7 ∧
      ¬ SeesResolved ((staticApplication [7]).bootstrap (.ok "1".toUTF8)).events injector := by
  refine ⟨_, rfl, rfl, rfl, fun h => ?_⟩
  have hothers := congrArg NexusConfigurationModel.others h.bound
  cases hothers

end NexusSdk.Core
