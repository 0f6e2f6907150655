import NexusSdk.Core.Startup
import NexusSdk.Input.PayloadReader

/-! `NexusBootstrapper.bootstrap`, of which the reading of the payload is modelled in full, and what
becomes of a payload that cannot be parsed. -/

namespace NexusSdk.Core

open Input AlgorithmPayloadReader

def raiseFrom (cls : PyClass) (arg : String) : Option PyExc → PyExc
  | some cause => .raisedFrom cls arg cause
  | none => .raised cls arg

/-- A configured bootstrapper, with the outcomes of the stages that do not read the payload. -/
structure NexusBootstrapper (α : Type) where
  modules : Modules
  sasUri : String
  serializationMode : String
  /-- what comes before the reading of the payload, the load of the bootstrap type included -/
  prepare : Except PyExc Unit
  bootstrapPayloadType : Option (PayloadType α)
  /-- `_load_payload_type(runtime.payload.type_name)` -/
  loadPayloadType : Except PyExc (PayloadType α)
  algorithmResolver : Option (α → Except PyExc (String × Option String))
  /-- `runtime.algorithm` -/
  algorithm : String
  loadAlgorithm : String → Option String → Except PyExc Unit
  /-- `_load_payload_type` with the configuration extension of the algorithm -/
  reloadPayloadType : Except PyExc (PayloadType α)
  /-- what follows the binding of the payload -/
  bindServices : α → Except PyExc Unit

namespace NexusBootstrapper

variable {α : Type}

def getPayload (b : NexusBootstrapper α) (payloadType : PayloadType α) (saveContent : Bool)
    (response : Except PyExc ByteArray) : Except PyExc (Option α × AlgorithmPayloadReader α) := do
  let reader ← (init payloadType saveContent).aenter b.modules response
  return (reader.payload, reader)

/-- If a bootstrap payload type is provided, the content is read and cached for morph. -/
def readPayload (b : NexusBootstrapper α) (response : Except PyExc ByteArray) :
    Except PyExc (Option α × AlgorithmPayloadReader α) :=
  match b.bootstrapPayloadType with
  | some payloadType => b.getPayload payloadType true response
  | none => do
    let payloadType ← b.loadPayloadType
    b.getPayload payloadType (b.serializationMode != "off") response

/-- The name of the type for the message about a payload that was not parsed. -/
def parsedTypeName (b : NexusBootstrapper α) : Except PyExc String :=
  match b.bootstrapPayloadType with
  | some payloadType => .ok payloadType.name
  -- `self._payload_type`, which is set before a morph only, is `None`
  | none => .error (.raised attributeError "'NoneType' object has no attribute '__name__'")

def resolveAlgorithm (b : NexusBootstrapper α) (payload : α) : Except PyExc Unit :=
  match b.algorithmResolver with
  | some resolver => do
    let (algorithm, configModel) ← resolver payload
    b.loadAlgorithm algorithm configModel
  | none => b.loadAlgorithm b.algorithm none

/-- A payload of a bootstrap type is morphed into the runtime payload. -/
def runtimePayload (b : NexusBootstrapper α) (payload : α) (reader : AlgorithmPayloadReader α) :
    Except PyExc α :=
  match b.bootstrapPayloadType with
  | none => .ok payload
  | some bootstrapType => do
    let payloadType ← b.reloadPayloadType
    match reader.morph payloadType with
    | (_, some payload) => return payload
    | (reader, none) => .error (raiseFrom fatalStartupConfigurationError
        (s!"Failed to morph bootstrap payload of class {bootstrapType.name} into runtime payload " ++
          s!"of class {payloadType.name}") reader.readExc)

/-- `bootstrap`, with the outcome of the download of the payload. -/
def bootstrap (b : NexusBootstrapper α) (response : Except PyExc ByteArray) :
    Except PyExc Unit := do
  b.prepare
  let (payload, reader) ← b.readPayload response
  match payload, reader.readExc with
  | some payload, none =>
    b.resolveAlgorithm payload
    let payload ← b.runtimePayload payload reader
    b.bindServices payload
  | _, readExc =>
    let name ← b.parsedTypeName
    .error (raiseFrom fatalStartupConfigurationError
      s!"Unable to parse bootstrap payload from {b.sasUri} into {name}" readExc)

/-- The payload type that is read first. -/
def firstType (b : NexusBootstrapper α) : Except PyExc (PayloadType α) :=
  match b.bootstrapPayloadType with
  | some payloadType => .ok payloadType
  | none => b.loadPayloadType

end NexusBootstrapper

open NexusBootstrapper

variable {α : Type}

/-- The body, decompressed if it is an envelope, is no payload of the given type. -/
def Unparseable (m : Modules) (payloadType : PayloadType α) (body : ByteArray) : Prop :=
  ¬ ∃ data payload, payloadData m body = .ok data ∧ payloadType.fromJson data = .ok payload

/-- `bootstrap` raises a startup error that the exception of the reader caused, and the run is
completed with it. -/
def FailsRun (b : NexusBootstrapper α) (body : ByteArray) : Prop :=
  ∃ e cause payload reader, b.bootstrap (.ok body) = .error e ∧
    e.isInstance fatalStartupConfigurationError = true ∧ e.cause = some cause ∧
    b.readPayload (.ok body) = .ok (payload, reader) ∧ reader.readExc = some cause ∧
    ∀ env : Stages, env.load = .ok () → env.enter = .ok () → env.bootstrap = .error e →
      env.reportError = .ok () → Reported env e

variable {b : NexusBootstrapper α} {payloadType : PayloadType α} {body : ByteArray}

theorem getPayload_eq (b : NexusBootstrapper α) (payloadType : PayloadType α) (saveContent : Bool)
    (body : ByteArray) :
    b.getPayload payloadType saveContent (.ok body) =
      ((init payloadType saveContent).aenter b.modules (.ok body)).map
        fun reader => (reader.payload, reader) := by
  unfold getPayload
  cases (init payloadType saveContent).aenter b.modules (.ok body) <;> rfl

theorem of_getPayload_ok {saveContent : Bool} {r : Option α × AlgorithmPayloadReader α}
    (h : b.getPayload payloadType saveContent (.ok body) = .ok r) :
    (∃ data, payloadData b.modules body = .ok data) ∧
      (saveContent = true → ∃ text, decodeUtf8 body = .ok text) := by
  rw [getPayload_eq, aenter_eq] at h
  cases hdata : payloadData b.modules body with
  | error e =>
    rw [hdata] at h
    cases h
  | ok data =>
    refine ⟨⟨data, rfl⟩, fun hsave => ?_⟩
    cases htext : decodeUtf8 body with
    | ok text => exact ⟨text, rfl⟩
    | error e =>
      rw [hdata, htext, init, hsave] at h
      cases h

theorem getPayload_of_unparseable {data : PyValue} {text : String}
    (h : Unparseable b.modules payloadType body) (hdata : payloadData b.modules body = .ok data)
    (htext : decodeUtf8 body = .ok text) :
    ∃ cause, b.getPayload payloadType true (.ok body) =
      .ok (none, ⟨payloadType, true, none, some text, some cause⟩) := by
  cases hjson : payloadType.fromJson data with
  | ok payload => exact absurd ⟨data, payload, hdata, hjson⟩ h
  | error cause =>
    refine ⟨cause, ?_⟩
    rw [getPayload_eq, aenter_eq, hdata]
    simp [Except.bind, init, tryParse, hjson, htext, Except.map]

/-- A recorded exception is reported under the name of the type, if there is one. -/
theorem bootstrap_of_readExc {payload : Option α} {reader : AlgorithmPayloadReader α}
    {cause : PyExc} (hprepare : b.prepare = .ok ())
    (hread : b.readPayload (.ok body) = .ok (payload, reader)) (hexc : reader.readExc = some cause) :
    b.bootstrap (.ok body) = b.parsedTypeName.bind fun name =>
      .error (.raisedFrom fatalStartupConfigurationError
        s!"Unable to parse bootstrap payload from {b.sasUri} into {name}" cause) := by
  unfold bootstrap
  rw [hprepare, hread]
  simp only [bind, Except.bind, hexc, raiseFrom]

/-- An unparseable body fails the run exactly if a bootstrap payload type is configured, the body is
no envelope that fails to decompress, and it is valid UTF-8. -/
theorem unparseable_payload_fails_iff (b : NexusBootstrapper α) (body : ByteArray)
    (payloadType : PayloadType α) (hprepare : b.prepare = .ok ())
    (htype : b.firstType = .ok payloadType) (hbody : Unparseable b.modules payloadType body) :
    FailsRun b body ↔
      b.bootstrapPayloadType.isSome = true ∧ (∃ data, payloadData b.modules body = .ok data) ∧
        ∃ text, decodeUtf8 body = .ok text := by
  cases hstatic : b.bootstrapPayloadType with
  | none =>
    simp only [Option.isSome_none, Bool.false_eq_true, false_and, iff_false]
    rintro ⟨e, cause, payload, reader, hboot, hfatal, -, hread, hexc, -⟩
    rw [bootstrap_of_readExc hprepare hread hexc, parsedTypeName, hstatic] at hboot
    obtain rfl := Except.error.inj hboot
    exact absurd hfatal (by decide)
  | some bootstrapType =>
    obtain rfl : bootstrapType = payloadType := by
      rw [firstType, hstatic] at htype
      exact Except.ok.inj htype
    have hpayload : b.readPayload (.ok body) = b.getPayload bootstrapType true (.ok body) := by
      rw [readPayload, hstatic]
    simp only [Option.isSome_some, true_and]
    constructor
    · rintro ⟨e, cause, payload, reader, -, -, -, hread, -, -⟩
      obtain ⟨hdata, htext⟩ := of_getPayload_ok (hpayload ▸ hread)
      exact ⟨hdata, htext rfl⟩
    · rintro ⟨⟨data, hdata⟩, text, htext⟩
      obtain ⟨cause, hget⟩ := getPayload_of_unparseable hbody hdata htext
      rw [← hpayload] at hget
      have hboot := bootstrap_of_readExc hprepare hget rfl
      rw [parsedTypeName, hstatic] at hboot
      refine ⟨_, cause, none, _, hboot, rfl, rfl, hget, rfl, ?_⟩
      intro env hload henter hboot hreport
      exact (reported_of_bootstrap_error hload henter hboot rfl).mpr hreport

/-- A payload type that no text matches, in the flow with or without a bootstrap type. -/
def strictType : PayloadType Nat where
  name := "StrictPayload"
  fromJson _ := .error (.raised valueError "Expecting value: line 1 column 1 (char 0)")

def strictBootstrapper (bootstrapPayloadType : Option (PayloadType Nat)) :
    NexusBootstrapper Nat where
  modules := ⟨fun _ => .ok none, fun _ => .error (.raised valueError "Expecting value")⟩
  sasUri := "http://mock.uri/payload.json"
  serializationMode := "off"
  prepare := .ok ()
  bootstrapPayloadType := bootstrapPayloadType
  loadPayloadType := .ok strictType
  algorithmResolver := none
  algorithm := "algorithms.Minimalistic"
  loadAlgorithm _ _ := .ok ()
  reloadPayloadType := .ok strictType
  bindServices _ := .ok ()

theorem unparseable_strict (bootstrapPayloadType : Option (PayloadType Nat)) (body : ByteArray) :
    Unparseable (strictBootstrapper bootstrapPayloadType).modules strictType body := by
  rintro ⟨data, payload, -, hjson⟩
  cases hjson

theorem unparseable_payload_fails_iff_bootstrapType :
    let b := strictBootstrapper (some strictType)
    let body := "no json".toUTF8
    FailsRun b body ↔
      b.bootstrapPayloadType.isSome = true ∧ (∃ data, payloadData b.modules body = .ok data) ∧
        ∃ text, decodeUtf8 body = .ok text :=
  unparseable_payload_fails_iff _ _ strictType rfl rfl (unparseable_strict _ _)

/-- Without a bootstrap type, the message about the payload raises, and the run is retried. -/
theorem unparseable_payload_retried_without_bootstrapType :
    let b := strictBootstrapper none
    let body := "no json".toUTF8
    Unparseable b.modules strictType body ∧ ¬ FailsRun b body ∧
      endsWithZero (activate { smoothRun with bootstrap := b.bootstrap (.ok body) }).outcome =
        false := by
  intro b body
  have hboot : b.bootstrap (.ok body) =
      .error (.raised attributeError "'NoneType' object has no attribute '__name__'") := rfl
  refine ⟨unparseable_strict _ _, ?_, ?_⟩
  · rintro ⟨e, cause, payload, reader, herror, hfatal, -⟩
    rw [hboot] at herror
    obtain rfl := Except.error.inj herror
    exact absurd hfatal (by decide)
  · rw [hboot]
    decide

end NexusSdk.Core
