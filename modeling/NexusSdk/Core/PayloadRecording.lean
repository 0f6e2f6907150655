import NexusSdk.Core.StartupChecks

/-! When `bootstrap` records the payload, against the configured serialization mode. -/

namespace NexusSdk.Core

open Lib Input AlgorithmPayloadReader

variable {α O X F β γ : Type}

/-- The content of a recording of the payload. -/
def BootEvent.recording : BootEvent O → Option (Option String)
  | .getClient _ _ => none
  | .recordPayload content => some content
  | .recordFailedPayload content => some content

/-- The recordings that a computation starts. -/
def recordings (x : Traced (BootEvent O) PyExc β) : List (Option String) :=
  x.events.filterMap BootEvent.recording

/-- The cached text of the body is no payload of the given type. -/
def Unmorphable (payloadType : PayloadType α) (body : ByteArray) : Prop :=
  ¬ ∃ text payload, decodeUtf8 body = .ok text ∧ payloadType.fromJson (.str text) = .ok payload

theorem recordings_of_bind (x : Except PyExc β) (f : β → Traced (BootEvent O) PyExc γ) :
    recordings (.of x >>= f) = match x with
      | .ok b => recordings (f b)
      | .error _ => [] := by
  cases x <;> rfl

/-- What is recorded by what follows a computation that records nothing. -/
theorem recordings_bind {x : Traced (BootEvent O) PyExc β} (hx : recordings x = [])
    (f : β → Traced (BootEvent O) PyExc γ) :
    recordings (x >>= f) = recordings (.of x.outcome >>= f) := by
  obtain ⟨events, outcome⟩ := x
  cases outcome with
  | error e => exact hx
  | ok b =>
    rw [Traced.mk_ok_bind, recordings, List.filterMap_append]
    exact (congrArg (· ++ recordings (f b)) hx).trans (List.nil_append _)

theorem recordings_bind_of_quiet (x : Traced (BootEvent O) PyExc β)
    {f : β → Traced (BootEvent O) PyExc γ} (hf : ∀ b, recordings (f b) = []) :
    recordings (x >>= f) = recordings x := by
  obtain ⟨events, outcome⟩ := x
  cases outcome with
  | error e => rfl
  | ok b =>
    rw [Traced.mk_ok_bind, recordings, List.filterMap_append]
    exact (congrArg (recordings ⟨events, .ok b⟩ ++ ·) (hf b)).trans (List.append_nil _)

namespace Application

variable (app : Application α O X F)

/-! ### The configured mode -/

/-- The configured mode, extensions included. -/
def serializationMode (body : ByteArray) : String :=
  (app.finalConfiguration (.ok body)).default.base.runtime.payload.serializationMode

/-- The type into which the body is read, if `bootstrap` gets to read it. -/
def firstType : Except PyExc (PayloadType α) := do
  let prepared ← app.prepare
  match prepared.bootstrapPayloadType with
  | some payloadType => return payloadType
  | none => app.loadPayloadType app.startModel.runtime.payload.typeName

/-- The type into which the payload of a bootstrap type is morphed. -/
def runtimeType (body : ByteArray) : Except PyExc (PayloadType α) :=
  app.loadPayloadType
    (app.finalConfiguration (.ok body)).default.base.runtime.payload.typeName

def Received : Prop := ∃ payloadType, app.firstType = .ok payloadType

/-- The body cannot be parsed or morphed into the configured type. -/
def Unreadable (body : ByteArray) : Prop :=
  (∃ payloadType, app.firstType = .ok payloadType ∧ Unparseable app.modules payloadType body) ∨
    app.startModel.runtime.payload.bootstrapTypeName ≠ "" ∧
      ∃ payloadType, app.runtimeType body = .ok payloadType ∧ Unmorphable payloadType body

/-- The mode asks for a recording of the body. -/
def Wanted (body : ByteArray) : Prop :=
  app.Received ∧ (app.serializationMode body = "always" ∨
    app.serializationMode body = "on_failure" ∧ app.Unreadable body)

structure RecordsAsConfigured (body : ByteArray) : Prop where
  once : app.Wanted body → ∃ text, decodeUtf8 body = .ok text ∧
    recordings (app.bootstrap (.ok body)) = [some text]
  none : ¬ app.Wanted body → recordings (app.bootstrap (.ok body)) = []

/-! ### The checks before the recording -/

/-- The snapshot of the configuration that the clients get. -/
def clientModel (response : Except PyExc ByteArray) : NexusConfigurationModel O :=
  if app.startModel.runtime.payload.bootstrapTypeName = "" then app.startModel
  else .fromRuntimeConfiguration (app.finalConfiguration response)

/-- The checks from the binding of the payload to its recording. -/
def recorderChecks (resolved : Resolved O X F) (model : NexusConfigurationModel O) (payload : α) :
    List Check :=
  app.clientChecks model payload ++ app.observabilityChecks resolved.config model payload ++
    [.step (app.services.telemetryRecorder model)] ++ [.step app.services.payloadRecorder]

/-- The mode of the snapshot is `always`, and all checks before the recording pass. -/
def ReachesRecorder (body : ByteArray) : Prop :=
  (app.clientModel (.ok body)).runtime.payload.serializationMode = "always" ∧
    (app.checksUntilBound (.ok body) app.recorderChecks).findSome? Check.failure = none

structure MeetsMode (body : ByteArray) : Prop where
  always : app.serializationMode body = "always" → app.Received → app.ReachesRecorder body
  onFailure : app.serializationMode body = "on_failure" → app.Received → ¬ app.Unreadable body
  other : app.serializationMode body ≠ "always" → ¬ app.ReachesRecorder body

/-- The stages before the recording, as `recorderChecks` has them. -/
def bindRecorder (prepared : Prepared α) (resolved : Resolved O X F)
    (model : NexusConfigurationModel O) (payload : α) (reader : AlgorithmPayloadReader α) :
    Except PyExc (AlgorithmPayloadReader α) := do
  (app.bindClients model payload).outcome
  app.bindObservability prepared resolved.config model payload
  app.services.telemetryRecorder model
  app.services.payloadRecorder
  return reader

theorem endsBy_bindRecorder (resolved : Resolved O X F) (model : NexusConfigurationModel O)
    (payload : α) (reader : AlgorithmPayloadReader α) :
    EndsBy (app.bindRecorder app.loaded resolved model payload reader)
      (app.recorderChecks resolved model payload) := by
  unfold recorderChecks
  rw [← List.append_nil [Check.step app.services.payloadRecorder]]
  simp only [List.append_assoc]
  refine (app.endsBy_bindClients model payload).seq fun _ _ => ?_
  refine (app.endsBy_bindObservability resolved.config model payload).seq fun _ _ => ?_
  refine (endsBy_step_unit _).seq fun _ _ => ?_
  exact (endsBy_step_unit _).seq fun _ _ => Checked.ok _

theorem reachesRecorder_iff (body : ByteArray) :
    app.ReachesRecorder body ↔
      (app.clientModel (.ok body)).runtime.payload.serializationMode = "always" ∧
        ∃ r, app.untilBound (.ok body) app.bindRecorder = .ok r :=
  and_congr_right fun _ => (app.endsBy_untilBound (.ok body)
    fun resolved model payload reader _ =>
      app.endsBy_bindRecorder resolved model payload reader).passes_iff

/-! ### What the stages know of the body -/

variable {app} {body : ByteArray} {prepared : Prepared α} {resolved : Resolved O X F}
  {model : NexusConfigurationModel O} {payload runtime : α} {reader : AlgorithmPayloadReader α}

theorem readPayload_of_parsedPayload (h : app.parsedPayload prepared (.ok body) = .ok (payload, reader)) :
    app.readPayload prepared (.ok body) = .ok (some payload, reader) ∧ reader.readExc = none := by
  obtain ⟨⟨payload', reader'⟩, hread, h⟩ := bind_eq_ok.mp h
  cases payload' with
  | none =>
    obtain ⟨_, -, h⟩ := bind_eq_ok.mp h
    cases h
  | some payload' =>
    cases hexc : reader'.readExc with
    | none =>
      simp only [hexc] at h
      cases h
      exact ⟨hread, hexc⟩
    | some e =>
      simp only [hexc] at h
      obtain ⟨_, -, h⟩ := bind_eq_ok.mp h
      cases h

theorem of_getPayload {payloadType : PayloadType α} {saveContent : Bool}
    (h : app.getPayload payloadType saveContent (.ok body) = .ok (some payload, reader)) :
    ¬ Unparseable app.modules payloadType body ∧ (saveContent = true →
      ∃ text, decodeUtf8 body = .ok text ∧ reader.payloadStr = some text) := by
  obtain ⟨reader', henter, h⟩ := bind_eq_ok.mp h
  obtain ⟨hpayload, rfl⟩ := Prod.ext_iff.mp (Except.ok.inj h)
  obtain ⟨⟨data, hdata, hjson⟩, htext⟩ := of_aenter henter hpayload
  exact ⟨fun hunparseable => hunparseable ⟨data, payload, hdata, hjson⟩, htext⟩

/-- A body that was read is a payload of the first type; its text is kept for the modes with a
recording, and for a morph. -/
theorem read_of_parsedPayload (hprepare : app.prepare = .ok prepared)
    (hparse : app.parsedPayload prepared (.ok body) = .ok (payload, reader)) :
    (∃ payloadType, app.firstType = .ok payloadType ∧
        ¬ Unparseable app.modules payloadType body) ∧
      (prepared.bootstrapPayloadType.isSome = true ∨
          app.startModel.runtime.payload.serializationMode = "always" →
        ∃ text, decodeUtf8 body = .ok text ∧ reader.payloadStr = some text) := by
  have hread := (readPayload_of_parsedPayload hparse).1
  unfold readPayload at hread
  unfold firstType
  rw [hprepare]
  cases hbootstrap : prepared.bootstrapPayloadType with
  | some payloadType =>
    rw [hbootstrap] at hread
    obtain ⟨hparses, htext⟩ := of_getPayload hread
    exact ⟨⟨payloadType, by simp only [bind, Except.bind, hbootstrap]; rfl, hparses⟩,
      fun _ => htext rfl⟩
  | none =>
    rw [hbootstrap] at hread
    obtain ⟨payloadType, hload, hget⟩ := bind_eq_ok.mp hread
    obtain ⟨hparses, htext⟩ := of_getPayload hget
    refine ⟨⟨payloadType, by simp only [bind, Except.bind, hbootstrap, hload], hparses⟩,
      fun hmode => htext ?_⟩
    rcases hmode with hmode | hmode
    · cases hmode
    · rw [hmode]
      rfl

theorem morphs_of_runtimePayload {bootstrapType : PayloadType α}
    (hbootstrap : prepared.bootstrapPayloadType = some bootstrapType)
    (htext : ∃ text, decodeUtf8 body = .ok text ∧ reader.payloadStr = some text)
    (hfinal : app.finalConfiguration (.ok body) = resolved.config)
    (h : app.runtimePayload prepared resolved payload reader = .ok (model, runtime)) :
    ∃ payloadType, app.runtimeType body = .ok payloadType ∧ ¬ Unmorphable payloadType body := by
  unfold runtimePayload at h
  rw [hbootstrap] at h
  obtain ⟨payloadType, hload, h⟩ := bind_eq_ok.mp h
  refine ⟨payloadType, ?_, fun hunmorphable => ?_⟩
  · rw [runtimeType, hfinal]
    exact hload
  · cases hmorph : reader.morph payloadType with
    | mk reader' morphed =>
      rw [hmorph] at h
      cases morphed with
      | none => cases h
      | some morphed =>
        obtain ⟨text, hstr, hjson⟩ := of_morph (congrArg Prod.snd hmorph)
        obtain ⟨text', hdecode, hstr'⟩ := htext
        obtain rfl := Option.some.inj (hstr.symm.trans hstr')
        exact hunmorphable ⟨text, morphed, hdecode, hjson⟩

theorem clientModel_eq
    (h : app.Binds (.ok body) prepared payload reader resolved model runtime) :
    app.clientModel (.ok body) = model := by
  have htype := bootstrapPayloadType_of_prepare h.prepare
  rw [snapshot_of_runtimePayload h.bound, clientModel, snapshot, h.finalConfiguration_eq]
  cases hbootstrap : prepared.bootstrapPayloadType with
  | none =>
    rw [hbootstrap] at htype
    rw [if_pos (by simpa using htype)]
  | some _ =>
    rw [hbootstrap] at htype
    rw [if_neg (by simpa using htype)]

theorem eq_of_bindRecorder {reader' : AlgorithmPayloadReader α}
    (h : app.bindRecorder prepared resolved model payload reader = .ok reader') :
    reader' = reader := by
  obtain ⟨_, -, h⟩ := bind_eq_ok.mp h
  obtain ⟨_, -, h⟩ := bind_eq_ok.mp h
  obtain ⟨_, -, h⟩ := bind_eq_ok.mp h
  obtain ⟨_, -, h⟩ := bind_eq_ok.mp h
  exact (Except.ok.inj h).symm

/-- A body that gets to the recorder is no unreadable one, and its text is what is recorded. -/
theorem of_untilBound (h : app.untilBound (.ok body) app.bindRecorder = .ok reader) :
    app.Received ∧ ¬ app.Unreadable body ∧
      ((app.clientModel (.ok body)).runtime.payload.serializationMode = "always" →
        ∃ text, decodeUtf8 body = .ok text ∧ reader.payloadStr = some text) := by
  rcases app.binds_or_fails (.ok body) with
    ⟨prepared, payload, reader', resolved, model, runtime, hbinds, huntil⟩ | ⟨e, -, huntil⟩
  case inr =>
    rw [huntil] at h
    cases h
  rw [huntil] at h
  obtain rfl := eq_of_bindRecorder h
  obtain ⟨⟨payloadType, hfirst, hparses⟩, htext⟩ :=
    read_of_parsedPayload hbinds.prepare hbinds.parse
  have hnamed := bootstrapPayloadType_of_prepare hbinds.prepare
  refine ⟨⟨payloadType, hfirst⟩, ?_, fun hmode => htext ?_⟩
  · rintro (⟨payloadType', hfirst', hunparseable⟩ | ⟨hname, payloadType', htype', hunmorphable⟩)
    · obtain rfl := Except.ok.inj (hfirst.symm.trans hfirst')
      exact hparses hunparseable
    · obtain ⟨bootstrapType, hbootstrap⟩ := Option.isSome_iff_exists.mp (hnamed.mpr hname)
      obtain ⟨payloadType, htype, hmorphs⟩ := morphs_of_runtimePayload hbootstrap
        (htext (.inl (hnamed.mpr hname))) hbinds.finalConfiguration_eq hbinds.bound
      obtain rfl := Except.ok.inj (htype.symm.trans htype')
      exact hmorphs hunmorphable
  · unfold clientModel at hmode
    split at hmode
    · exact .inr hmode
    · next hname => exact .inl (hnamed.mpr hname)

/-! ### What is recorded -/

theorem recordings_bindClients (model : NexusConfigurationModel O) (payload : α) :
    recordings (app.bindClients model payload) = [] := by
  refine List.filterMap_eq_nil_iff.mpr fun event hevent => ?_
  obtain ⟨factory, rfl⟩ := mem_events_bindClients hevent
  rfl

/-- Without an exception of the reader there is a recording only in the mode `always`. -/
theorem recordings_recordPayload (hexc : reader.readExc = none)
    (model : NexusConfigurationModel O) :
    recordings (app.recordPayload model reader) =
      if model.runtime.payload.serializationMode = "always" then
        match (do
          app.services.telemetryRecorder model
          app.services.payloadRecorder : Except PyExc Unit) with
        | .ok _ => [reader.payloadStr]
        | .error _ => []
      else [] := by
  unfold recordPayload
  by_cases halways : model.runtime.payload.serializationMode = "always"
  · simp only [halways, hexc, or_true, if_pos, recordings_of_bind]
    cases app.services.telemetryRecorder model with
    | error e => rfl
    | ok _ => cases app.services.payloadRecorder <;> rfl
  · rw [if_neg halways]
    by_cases hfailure : model.runtime.payload.serializationMode = "on_failure"
    · simp only [hfailure, hexc, true_or, if_pos, recordings_of_bind]
      cases app.services.telemetryRecorder model <;> rfl
    · rw [if_neg (by simp [halways, hfailure])]
      rfl

theorem recordings_bindServices (hexc : reader.readExc = none) :
    recordings (app.bindServices prepared resolved model payload reader) =
      if model.runtime.payload.serializationMode = "always" then
        match app.bindRecorder prepared resolved model payload reader with
        | .ok reader => [reader.payloadStr]
        | .error _ => []
      else [] := by
  unfold bindServices bindRecorder
  rw [recordings_bind (recordings_bindClients model payload), recordings_of_bind]
  cases (app.bindClients model payload).outcome with
  | error e => exact (ite_self []).symm
  | ok _ =>
  simp only [recordings_of_bind]
  cases app.bindObservability prepared resolved.config model payload with
  | error e => exact (ite_self []).symm
  | ok _ =>
    have hquiet (u : Unit) : recordings (do
        Traced.of (E := BootEvent O) (app.services.asyncClients model)
        .of (app.bindConfiguration resolved model)) = [] := by
      rw [recordings_of_bind]
      cases app.services.asyncClients model <;> rfl
    refine (recordings_bind_of_quiet _ hquiet).trans ?_
    rw [recordings_recordPayload hexc]
    simp only [bind, Except.bind]
    cases app.services.telemetryRecorder model with
    | error e => rfl
    | ok _ => cases app.services.payloadRecorder <;> rfl

theorem recordings_bootstrap (body : ByteArray) :
    recordings (app.bootstrap (.ok body)) =
      if (app.clientModel (.ok body)).runtime.payload.serializationMode = "always" then
        match app.untilBound (.ok body) app.bindRecorder with
        | .ok reader => [reader.payloadStr]
        | .error _ => []
      else [] := by
  rcases app.binds_or_fails (.ok body) with
    ⟨prepared, payload, reader, resolved, model, runtime, hbinds, huntil⟩ | ⟨e, he, huntil⟩
  · rw [hbinds.bootstrap_eq, recordings_bindServices (readPayload_of_parsedPayload hbinds.parse).2,
      clientModel_eq hbinds, huntil]
  · rw [he, huntil]
    exact (ite_self []).symm

theorem recordings_of_reaches (h : app.ReachesRecorder body) :
    ∃ text, decodeUtf8 body = .ok text ∧
      recordings (app.bootstrap (.ok body)) = [some text] := by
  obtain ⟨hmode, reader, hreader⟩ := (app.reachesRecorder_iff body).mp h
  obtain ⟨text, hdecode, htext⟩ := (of_untilBound hreader).2.2 hmode
  refine ⟨text, hdecode, ?_⟩
  rw [recordings_bootstrap, if_pos hmode, hreader]
  exact congrArg (fun content => [content]) htext

theorem recordings_of_not_reaches (h : ¬ app.ReachesRecorder body) :
    recordings (app.bootstrap (.ok body)) = [] := by
  rw [recordings_bootstrap]
  split
  · next hmode =>
    cases hreader : app.untilBound (.ok body) app.bindRecorder with
    | error e => rfl
    | ok reader => exact absurd ((app.reachesRecorder_iff body).mpr ⟨hmode, reader, hreader⟩) h
  · rfl

theorem readable_of_reaches (h : app.ReachesRecorder body) :
    app.Received ∧ ¬ app.Unreadable body := by
  obtain ⟨-, reader, hreader⟩ := (app.reachesRecorder_iff body).mp h
  obtain ⟨hreceived, hreadable, -⟩ := of_untilBound hreader
  exact ⟨hreceived, hreadable⟩

end Application

open Application in
/-- The recordings follow the configured mode exactly if a body in the mode `always` gets to the
recorder, none in the mode `on_failure` is unreadable, and the snapshot has the mode `always` only
if that is the configured one. -/
theorem records_as_configured_iff (app : Application α O X F) (body : ByteArray) :
    app.RecordsAsConfigured body ↔ app.MeetsMode body := by
  constructor
  · intro h
    have hreaches (hwanted : app.Wanted body) : app.ReachesRecorder body := by
      by_contra hnot
      obtain ⟨text, -, hone⟩ := h.once hwanted
      rw [recordings_of_not_reaches hnot] at hone
      cases hone
    refine ⟨fun hmode hreceived => hreaches ⟨hreceived, .inl hmode⟩, ?_, ?_⟩
    · intro hmode hreceived hunreadable
      have hreach := hreaches ⟨hreceived, .inr ⟨hmode, hunreadable⟩⟩
      exact (readable_of_reaches hreach).2 hunreadable
    · intro hmode hreach
      have hunwanted : ¬ app.Wanted body := by
        rintro ⟨-, halways | ⟨-, hunreadable⟩⟩
        · exact hmode halways
        · exact (readable_of_reaches hreach).2 hunreadable
      obtain ⟨text, -, hone⟩ := recordings_of_reaches hreach
      rw [h.none hunwanted] at hone
      cases hone
  · intro h
    refine ⟨?_, fun hunwanted => recordings_of_not_reaches fun hreach => ?_⟩
    · rintro ⟨hreceived, hmode | ⟨hmode, hunreadable⟩⟩
      · exact recordings_of_reaches (h.always hmode hreceived)
      · exact absurd hunreadable (h.onFailure hmode hreceived)
    · by_cases hmode : app.serializationMode body = "always"
      · exact hunwanted ⟨(readable_of_reaches hreach).1, .inl hmode⟩
      · exact h.other hmode hreach

example :
    let app := sampleApplication []
      (sampleSettings "algorithms.Sample" ⟨"payloads.Any", "payloads.Any", "always"⟩) anyPayload []
      rfl
    recordings (app.bootstrap (.ok "1".toUTF8)) = [some "1"] := by
  decide +kernel

/-- An application that records failed payloads, with types that match no text. -/
def recordsOnFailure : Application Nat Nat Unit Nat :=
  sampleApplication []
    (sampleSettings "algorithms.Sample" ⟨"payloads.Strict", "payloads.Strict", "on_failure"⟩)
    strictType [] rfl

/-- `bootstrap` raises before it gets to the recorder of failed payloads. -/
theorem failed_payload_not_recorded :
    recordsOnFailure.Wanted "no json".toUTF8 ∧
      recordings (recordsOnFailure.bootstrap (.ok "no json".toUTF8)) = [] ∧
      ¬ recordsOnFailure.RecordsAsConfigured "no json".toUTF8 := by
  have hwanted : recordsOnFailure.Wanted "no json".toUTF8 := by
    have hunparseable :
        Unparseable recordsOnFailure.modules strictType "no json".toUTF8 := by
      rintro ⟨data, payload, -, hjson⟩
      cases hjson
    exact ⟨⟨strictType, rfl⟩, .inr ⟨rfl, .inl ⟨strictType, rfl, hunparseable⟩⟩⟩
  have hnone : recordings (recordsOnFailure.bootstrap (.ok "no json".toUTF8)) = [] := rfl
  refine ⟨hwanted, hnone, fun h => ?_⟩
  obtain ⟨text, -, hone⟩ := h.once hwanted
  rw [hnone] at hone
  cases hone

end NexusSdk.Core
