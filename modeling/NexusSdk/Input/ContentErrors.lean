import NexusSdk.Input.Compression

/-! Which content errors `__aenter__` of the payload reader contains.  Only the parsing into the
payload type happens under a handler that records the exception. -/

namespace NexusSdk.Input

open Lib AlgorithmPayloadReader

variable {α : Type}

/-- The path of the envelope locates a function, which accepts the content of the envelope. -/
def CompressedPayload.Decompresses (m : Modules) (c : CompressedPayload) : Prop :=
  ∃ path decompressionFunction compressedBytes data,
    c.decompressionImportPath = .str path ∧
      m.locate path = .ok (some decompressionFunction) ∧
      b64decode c.content = .ok compressedBytes ∧
      decompressionFunction compressedBytes = .ok data

/-- A body that is an envelope can be decompressed, and one that is saved is text. -/
structure ReadableContent (m : Modules) (saveContent : Bool) (content : ByteArray) : Prop where
  decompresses : ∀ c, m.compressedFromJson (.bytes content) = .ok c → c.Decompresses m
  text : saveContent = true → (String.fromUTF8? content).isSome = true

/-- What `__aenter__` of a new reader does if it contains all content errors. -/
structure ContainsContentErrors (m : Modules) (T : PayloadType α) (saveContent : Bool)
    (response : Except PyExc ByteArray) : Prop where
  transfer_raised : ∀ e, (init T saveContent).aenter m response = .error e → response = .error e
  payload_or_exception : ∀ r, (init T saveContent).aenter m response = .ok r →
    r.payload.isSome = !r.readExc.isSome

section Decompression

variable {m : Modules} {c : CompressedPayload}

theorem decompress_eq_ok_iff {data : PyValue} :
    c.decompress m = .ok data ↔
      ∃ path decompressionFunction compressedBytes,
        c.decompressionImportPath = .str path ∧
          m.locate path = .ok (some decompressionFunction) ∧
          b64decode c.content = .ok compressedBytes ∧
          decompressionFunction compressedBytes = .ok data := by
  unfold CompressedPayload.decompress
  cases c.decompressionImportPath with
  | bytes b => simp
  | other typeName => simp
  | str path =>
  rw [bind_eq_ok]
  constructor
  · rintro ⟨found, hlocate, hdata⟩
    cases found with
    | none => cases hdata
    | some decompressionFunction =>
      cases hcontent : b64decode c.content with
      | error e =>
        simp only [hcontent] at hdata
        cases hdata
      | ok compressedBytes =>
        simp only [hcontent] at hdata
        exact ⟨path, decompressionFunction, compressedBytes, rfl, hlocate, rfl, hdata⟩
  · rintro ⟨path', decompressionFunction, compressedBytes, hpath, hlocate, hcontent, hdata⟩
    obtain rfl := PyValue.str.inj hpath
    refine ⟨some decompressionFunction, hlocate, ?_⟩
    simp only [hcontent]
    exact hdata

theorem decompresses_iff : c.Decompresses m ↔ ∃ data, c.decompress m = .ok data := by
  constructor
  · rintro ⟨path, f, bytes, data, h⟩
    exact ⟨data, decompress_eq_ok_iff.mpr ⟨path, f, bytes, h⟩⟩
  · rintro ⟨data, hdata⟩
    obtain ⟨path, f, bytes, h⟩ := decompress_eq_ok_iff.mp hdata
    exact ⟨path, f, bytes, data, h⟩

/-- The data to parse is found if the body is no envelope, or one that can be decompressed. -/
theorem payloadData_iff {content : ByteArray} :
    (∃ data, payloadData m content = .ok data) ↔
      ∀ c, m.compressedFromJson (.bytes content) = .ok c → c.Decompresses m := by
  unfold payloadData
  cases m.compressedFromJson (.bytes content) with
  | error e => simp
  | ok c => simp [decompresses_iff]

end Decompression

theorem decodeUtf8_iff {content : ByteArray} :
    (∃ text, decodeUtf8 content = .ok text) ↔ (String.fromUTF8? content).isSome = true := by
  unfold decodeUtf8
  cases String.fromUTF8? content <;> simp

variable {m : Modules} {T : PayloadType α} {saveContent : Bool} {content : ByteArray}

/-- `__aenter__` returns exactly for readable contents. -/
theorem aenter_returns_iff :
    (∃ r, (init T saveContent).aenter m (.ok content) = .ok r) ↔
      ReadableContent m saveContent content := by
  rw [aenter_eq]
  constructor
  · rintro ⟨r, hr⟩
    obtain ⟨data, hdata, hrest⟩ := bind_eq_ok.mp hr
    refine ⟨payloadData_iff.mp ⟨data, hdata⟩, ?_⟩
    rintro rfl
    rw [← decodeUtf8_iff]
    cases htext : decodeUtf8 content with
    | error e =>
      rw [htext] at hrest
      cases hrest
    | ok text => exact ⟨text, rfl⟩
  · rintro ⟨hdecompresses, htext⟩
    obtain ⟨data, hdata⟩ := payloadData_iff.mpr hdecompresses
    rw [hdata]
    cases saveContent with
    | false => exact ⟨_, rfl⟩
    | true =>
      obtain ⟨text, hdecode⟩ := decodeUtf8_iff.mpr (htext rfl)
      rw [hdecode]
      exact ⟨_, rfl⟩

/-- A new reader has parsed the payload or recorded the exception. -/
theorem payload_or_exception_tryParse (data : PyValue) :
    ((init T saveContent).tryParse data).payload.isSome =
      !((init T saveContent).tryParse data).readExc.isSome := by
  unfold tryParse
  cases h : T.fromJson data with
  | ok payload => simp [init, h]
  | error e => simp [init, h]

theorem payload_or_exception_aenter {r : AlgorithmPayloadReader α}
    (h : (init T saveContent).aenter m (.ok content) = .ok r) :
    r.payload.isSome = !r.readExc.isSome := by
  rw [aenter_eq] at h
  obtain ⟨data, -, hrest⟩ := bind_eq_ok.mp h
  cases saveContent with
  | false =>
    obtain rfl := Except.ok.inj hrest
    exact payload_or_exception_tryParse data
  | true =>
    cases htext : decodeUtf8 content with
    | error e =>
      rw [htext] at hrest
      cases hrest
    | ok text =>
      rw [htext] at hrest
      obtain rfl := Except.ok.inj hrest
      exact payload_or_exception_tryParse data

/-- `__aenter__` contains the content errors of a response exactly if its body is readable; one that
is not is a broken envelope, or no text although it is saved. -/
theorem content_errors_contained_iff (m : Modules) (T : PayloadType α) (saveContent : Bool)
    (response : Except PyExc ByteArray) :
    ContainsContentErrors m T saveContent response ↔
      ∀ content, response = .ok content → ReadableContent m saveContent content := by
  cases response with
  | error e =>
    refine iff_of_true ⟨fun e' herror => ?_, fun r hr => ?_⟩ fun content hcontent => ?_
    · exact congrArg Except.error (Except.error.inj herror)
    · cases hr
    · cases hcontent
  | ok content =>
    have hreadable : (∀ content', .ok content = (.ok content' : Except PyExc ByteArray) →
        ReadableContent m saveContent content') ↔ ReadableContent m saveContent content :=
      ⟨fun h => h content rfl, fun h content' heq => Except.ok.inj heq ▸ h⟩
    rw [hreadable, ← aenter_returns_iff (T := T)]
    constructor
    · rintro ⟨htransfer, -⟩
      cases haenter : (init T saveContent).aenter m (.ok content) with
      | ok r => exact ⟨r, rfl⟩
      | error e => cases htransfer e haenter
    · rintro ⟨r, hr⟩
      refine ⟨fun e herror => ?_, fun r' hr' => payload_or_exception_aenter hr'⟩
      cases hr.symm.trans herror

/-- An envelope, the path of which locates nothing. -/
def unknownPathEnvelope : String :=
  "\x7b\"content\": \"\", \"decompression_import_path\": \"missing\"\x7d"

def modulesWithoutFunctions : Modules where
  locate _ := .ok none
  compressedFromJson v :=
    if v.json = some unknownPathEnvelope then .ok ⟨.str "", .str "missing"⟩
    else .error (.raised keyError "content")

/-- The exception leaves `__aenter__` and is not recorded. -/
theorem unknown_path_raised :
    (init documentType true).aenter modulesWithoutFunctions (.ok unknownPathEnvelope.toUTF8) =
        .error (.raised fatalStartupConfigurationError
          ("Failed to decompress payload: Could not locate or call the decompression function at " ++
            "'missing' ")) ∧
      ¬ ContainsContentErrors modulesWithoutFunctions documentType true
        (.ok unknownPathEnvelope.toUTF8) := by
  have henvelope : modulesWithoutFunctions.compressedFromJson (.bytes unknownPathEnvelope.toUTF8) =
      .ok ⟨.str "", .str "missing"⟩ := by
    simp only [modulesWithoutFunctions, json_toUTF8, if_true]
  have hraises : (init documentType true).aenter modulesWithoutFunctions
      (.ok unknownPathEnvelope.toUTF8) = .error (.raised fatalStartupConfigurationError
        ("Failed to decompress payload: Could not locate or call the decompression function at " ++
          "'missing' ")) := by
    rw [aenter_eq]
    simp only [payloadData, henvelope]
    rfl
  exact ⟨hraises, fun hcontains => by cases hcontains.transfer_raised _ hraises⟩

end NexusSdk.Input
