import NexusSdk.Input.Compression
import NexusSdk.Input.JsonPayload

/-! The payload of a remote run: `RemoteAlgorithm` turns it into the parameters of the run, and the
payload reader of that run restores it, whether or not it was compressed on the way. -/

namespace NexusSdk.Algorithms

open Lib Input

variable {F α : Type}

/-- `Compressor`: what a remote algorithm uses of it. -/
structure Compressor where
  compress : ByteArray → Except PyExc ByteArray
  decompressorImportPath : String

def compressorNotConfigured : PyExc := .raised fatalNexusError
  ("Compressor is not configured for remote algorithm payload compression. " ++
    "Configure using environment variable NEXUS__REMOTE_ALGORITHM__COMPRESSION_IMPORT_PATH " ++
    "and NEXUS__REMOTE_ALGORITHM__DECOMPRESSION_IMPORT_PATH")

/-- The dictionary of an envelope. -/
def envelopeDict (content decompressionImportPath : String) : Json F :=
  .obj [(Json.units contentField, Json.ofString content),
    (Json.units decompressionImportPathField, Json.ofString decompressionImportPath)]

/-- `_compress_remote_payload`, of the payload's JSON. -/
def compressRemotePayload (compressor : Option Compressor) (payloadJson : String) :
    Except PyExc (Json F) :=
  match compressor with
  | none => .error compressorNotConfigured
  | some compressor => do
    let compressed ← compressor.compress payloadJson.toUTF8
    return envelopeDict (b64encode compressed) compressor.decompressorImportPath

/-- The parameters with which `_create_remote_run` creates the run; `deserialize` is that of
`DictJsonSerializationFormat`. -/
def algorithmParameters (deserialize : ByteArray → Except PyExc (Json F))
    (compressor : Option Compressor) (compressPayload : Bool) (payloadJson : String) :
    Except PyExc (Json F) :=
  if compressPayload then compressRemotePayload compressor payloadJson
  else deserialize payloadJson.toUTF8

/-! ### The round trip -/

/-- The reader of the run gets the payload from the JSON of the parameters. -/
def Restores (J : JsonModule F) (m : Modules) (T : PayloadType α) (saveContent : Bool)
    (parameters : Json F) (payload : α) : Prop :=
  ∃ reader, (AlgorithmPayloadReader.init T saveContent).aenter m
      (.ok (J.dumps parameters).toUTF8) = .ok reader ∧
    reader.payload = some payload ∧ reader.readExc = none

variable {J : JsonModule F} {m : Modules}

/-- A reader that gets data from which the payload is parsed has the payload. -/
theorem restores_of_payloadData {T : PayloadType α} {parameters : Json F} {payload : α}
    (saveContent : Bool) (data : PyValue)
    (hdata : AlgorithmPayloadReader.payloadData m (J.dumps parameters).toUTF8 = .ok data)
    (hparse : T.fromJson data = .ok payload) : Restores J m T saveContent parameters payload := by
  unfold Restores
  rw [AlgorithmPayloadReader.aenter_eq, hdata]
  have htry : (AlgorithmPayloadReader.init T saveContent).tryParse data =
      { AlgorithmPayloadReader.init T saveContent with payload := some payload } := by
    rw [AlgorithmPayloadReader.tryParse, AlgorithmPayloadReader.init, hparse]
  cases saveContent with
  | false => exact ⟨_, rfl, by rw [htry], by rw [htry]; rfl⟩
  | true =>
    refine ⟨{ (AlgorithmPayloadReader.init T true).tryParse data with
      payloadStr := some (J.dumps parameters) }, ?_, by rw [htry], by rw [htry]; rfl⟩
    show ((decodeUtf8 (J.dumps parameters).toUTF8).map _ : Except PyExc _) = _
    rw [decodeUtf8_toUTF8]
    rfl

theorem envelope_fields_ne :
    Json.units contentField ≠ Json.units decompressionImportPathField := by decide

theorem wf_envelopeDict (content path : String) : (envelopeDict content path : Json F).Wf := by
  refine .obj ?_ fun member hmember => ?_
  · simpa using envelope_fields_ne
  · simp only [List.mem_cons, List.not_mem_nil, or_false] at hmember
    rcases hmember with rfl | rfl
    · exact .str _
    · exact .str _

/-- The parser finds the fields of an envelope in its document. -/
theorem compressedFromJson_envelopeDict (hm : ParsesEnvelopes J m) (content path : String) :
    m.compressedFromJson (.bytes (J.dumps (envelopeDict content path)).toUTF8) =
      .ok ⟨.str content, .str path⟩ := by
  have hloads := JsonModule.loads_toUTF8 (J.loads_dumps (wf_envelopeDict content path))
  refine hm.fields _ _ _ _ hloads ?_ ?_
  · exact List.lookup_cons_self
  · rw [List.lookup_cons, beq_false_of_ne envelope_fields_ne.symm]
    exact List.lookup_cons_self

theorem restores_compressed (hm : ParsesEnvelopes J m) {T : JsonPayloadType J α} {payload : α}
    {compressed : ByteArray} {path : String} {decompress : ByteArray → Except PyExc PyValue}
    (saveContent : Bool) (hparse : T.fromJson (.str (T.toJson payload)) = .ok payload)
    (hinverse : decompress compressed = .ok (.bytes (T.toJson payload).toUTF8))
    (hlocate : m.locate path = .ok (some decompress)) :
    Restores J m T.toPayloadType saveContent (envelopeDict (b64encode compressed) path) payload := by
  refine restores_of_payloadData saveContent (.bytes (T.toJson payload).toUTF8) ?_ ?_
  · rw [AlgorithmPayloadReader.payloadData, compressedFromJson_envelopeDict hm]
    show (CompressedPayload.mk _ _).decompress m = _
    rw [decompress_envelope hlocate, hinverse]
  · obtain ⟨v, hloads⟩ := T.loads_of_fromJson hparse
    exact T.fromJson_congr hparse hloads (JsonModule.loads_toUTF8 hloads)

theorem restores_plain (hm : ParsesEnvelopes J m) {T : JsonPayloadType J α} {payload : α}
    {v : Json F} (saveContent : Bool)
    (hparse : T.fromJson (.str (T.toJson payload)) = .ok payload)
    (hloads : J.loads (.str (T.toJson payload)) = .ok v) (hkeys : hasEnvelopeKeys v = false) :
    Restores J m T.toPayloadType saveContent v payload := by
  have hwf : v.Wf := Json.wf_loads (JsonModule.loads_str.mp hloads)
  have hbody := JsonModule.loads_toUTF8 (J.loads_dumps hwf)
  refine restores_of_payloadData saveContent (.bytes (J.dumps v).toUTF8) ?_ ?_
  · unfold AlgorithmPayloadReader.payloadData
    cases henvelope : m.compressedFromJson (.bytes (J.dumps v).toUTF8) with
    | error e => rfl
    | ok c =>
      obtain ⟨w, hw, htrue⟩ := (hm.succeeds_iff _).mp ⟨c, henvelope⟩
      rw [hbody] at hw
      obtain rfl := Except.ok.inj hw
      rw [hkeys] at htrue
      cases htrue
  · exact T.fromJson_congr hparse hloads hbody

/-- A payload survives the way through the parameters of a run: compressed, whatever it is, and
plain, unless its JSON has both keys of an envelope. -/
theorem remote_payload_round_trip (J : JsonModule F) (m : Modules) (hm : ParsesEnvelopes J m)
    (deserialize : ByteArray → Except PyExc (Json F))
    (hdeserialize : ∀ s v, J.loads (.str s) = .ok v → deserialize s.toUTF8 = .ok v)
    (T : JsonPayloadType J α) (hT : ∀ p, T.fromJson (.str (T.toJson p)) = .ok p)
    (saveContent : Bool) :
    (∀ (compressor : Compressor) (decompress : ByteArray → Except PyExc PyValue),
      (∀ b, ∃ c, compressor.compress b = .ok c ∧ decompress c = .ok (.bytes b)) →
      m.locate compressor.decompressorImportPath = .ok (some decompress) →
      ∀ p, ∃ parameters,
        algorithmParameters deserialize (some compressor) true (T.toJson p) = .ok parameters ∧
          Restores J m T.toPayloadType saveContent parameters p) ∧
      ∀ (compressor : Option Compressor) (p : α),
        (∀ v, J.loads (.str (T.toJson p)) = .ok v → hasEnvelopeKeys v = false) →
        ∃ parameters,
          algorithmParameters deserialize compressor false (T.toJson p) = .ok parameters ∧
            Restores J m T.toPayloadType saveContent parameters p := by
  refine ⟨fun compressor decompress hinverse hlocate p => ?_, fun compressor p hkeys => ?_⟩
  · obtain ⟨compressed, hcompress, hdecompress⟩ := hinverse (T.toJson p).toUTF8
    refine ⟨envelopeDict (b64encode compressed) compressor.decompressorImportPath, ?_,
      restores_compressed hm saveContent (hT p) hdecompress hlocate⟩
    rw [algorithmParameters, if_pos rfl, compressRemotePayload, hcompress]
    rfl
  · obtain ⟨v, hloads⟩ := T.loads_of_fromJson (hT p)
    refine ⟨v, ?_, restores_plain hm saveContent (hT p) hloads (hkeys v hloads)⟩
    rw [algorithmParameters, if_neg Bool.false_ne_true]
    exact hdeserialize _ _ hloads

/-! ### A codec that changes nothing -/

/-- Floats as their literals. -/
def literalFloats : Json.FloatFormat {t : Json.FloatText // t.valid = true} where
  ofText t := if h : t.valid = true then ⟨t, h⟩ else ⟨.nan, rfl⟩
  text := Subtype.val
  valid_text := Subtype.property
  ofText_text f := dif_pos f.property

/-- A `json` module that reads documents in UTF-8. -/
def utf8Json : JsonModule {t : Json.FloatText // t.valid = true} where
  floats := literalFloats
  decode
    | .utf8, b => decodeUtf8 b
    | _, _ => .error invalidUtf8
  decode_toUTF8 := decodeUtf8_toUTF8
  decodeError text := .raised valueError text

def fieldValue : Json F → PyValue
  | .null => .other "NoneType"
  | .bool _ => .other "bool"
  | .int _ => .other "int"
  | .float _ => .other "float"
  | .str s => match Json.decodeUtf16 s with
    | some l => .str (.ofList l)
    | none => .other "str"
  | .arr _ => .other "list"
  | .obj _ => .other "dict"

theorem fieldValue_ofString (s : String) : fieldValue (Json.ofString s : Json F) = .str s := by
  rw [Json.ofString, Json.units, fieldValue, Json.decodeUtf16_flatMap]
  exact congrArg PyValue.str String.ofList_toList

def envelopeOf : Json F → Except PyExc CompressedPayload
  | .obj members =>
    match members.lookup (Json.units contentField),
      members.lookup (Json.units decompressionImportPathField) with
    | some content, some path => .ok ⟨fieldValue content, fieldValue path⟩
    | none, _ => .error (.raised keyError contentField)
    | _, none => .error (.raised keyError decompressionImportPathField)
  | _ => .error (.raised attributeError "items")

theorem envelopeOf_ok_iff (v : Json F) :
    (∃ c, envelopeOf v = .ok c) ↔ hasEnvelopeKeys v = true := by
  cases v with
  | obj members =>
    simp only [envelopeOf, hasEnvelopeKeys, Bool.and_eq_true, Option.isSome_iff_exists]
    split
    · next hcontent hpath => exact ⟨fun _ => ⟨⟨_, hcontent⟩, _, hpath⟩, fun _ => ⟨_, rfl⟩⟩
    · next hcontent => simp [hcontent]
    · next hpath _ => simp [hpath]
  | _ => simp [envelopeOf, hasEnvelopeKeys]

/-- Modules in which `bytes` is the decompression function and envelopes are parsed. -/
def jsonModules : Modules where
  locate := modules.locate
  compressedFromJson data := (utf8Json.loads data).bind envelopeOf

theorem parsesEnvelopes_jsonModules : ParsesEnvelopes utf8Json jsonModules where
  succeeds_iff data := by
    show (∃ c, (utf8Json.loads data).bind envelopeOf = .ok c) ↔ _
    cases utf8Json.loads data with
    | error e => simp [Except.bind]
    | ok v => simpa [Except.bind] using envelopeOf_ok_iff v
  fields data members content path hloads hcontent hpath := by
    show (utf8Json.loads data).bind envelopeOf = _
    rw [hloads]
    simp only [Except.bind, envelopeOf, hcontent, hpath, fieldValue_ofString]

/-- A payload with one integer field. -/
def counterType : JsonPayloadType utf8Json Int where
  name := "Counter"
  fromJson data := (utf8Json.loads data).bind fun
    | .obj members => match members.lookup (Json.units "x") with
      | some (.int i) => .ok i
      | _ => .error (.raised keyError "x")
    | _ => .error (.raised attributeError "items")
  toJson i := utf8Json.dumps (.obj [(Json.units "x", .int i)])
  fromDict
    | .obj members => match members.lookup (Json.units "x") with
      | some (.int i) => .ok i
      | _ => .error (.raised keyError "x")
    | _ => .error (.raised attributeError "items")
  fromJson_eq _ := rfl

theorem wf_counter (i : Int) :
    (Json.obj [(Json.units "x", .int i)] : Json {t : Json.FloatText // t.valid = true}).Wf :=
  .obj (by simp) fun member hmember => by
    obtain rfl := List.mem_singleton.mp hmember
    exact .int i

theorem counterType_fromJson (i : Int) :
    counterType.fromJson (.str (counterType.toJson i)) = .ok i := by
  show (utf8Json.loads (.str (utf8Json.dumps _))).bind _ = _
  rw [utf8Json.loads_dumps (wf_counter i)]
  rfl

def identityCompressor : Compressor := ⟨fun b => .ok b, "bytes"⟩

theorem remote_payload_round_trip_counter :
    (∃ parameters, algorithmParameters (fun b => utf8Json.loads (.bytes b))
        (some identityCompressor) true (counterType.toJson 1) = .ok parameters ∧
      Restores utf8Json jsonModules counterType.toPayloadType true parameters 1) ∧
    ∃ parameters, algorithmParameters (fun b => utf8Json.loads (.bytes b))
        none false (counterType.toJson 1) = .ok parameters ∧
      Restores utf8Json jsonModules counterType.toPayloadType true parameters 1 := by
  have hround := remote_payload_round_trip utf8Json jsonModules parsesEnvelopes_jsonModules
    (fun b => utf8Json.loads (.bytes b)) (fun _ _ h => JsonModule.loads_toUTF8 h) counterType
    counterType_fromJson true
  refine ⟨hround.1 identityCompressor (fun b => .ok (.bytes b)) (fun b => ⟨b, rfl, rfl⟩) rfl 1,
    hround.2 none 1 fun v hv => ?_⟩
  have hloads := utf8Json.loads_dumps (wf_counter 1)
  rw [show counterType.toJson 1 = utf8Json.dumps _ from rfl, hloads] at hv
  obtain rfl := Except.ok.inj hv
  rfl

end NexusSdk.Algorithms
