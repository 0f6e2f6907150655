import NexusSdk.Exceptions
import NexusSdk.Lib.Base64

/-! `AlgorithmPayloadReader`: the payload is downloaded, decompressed if it is an envelope, parsed,
and its text kept for a later `morph`.  The parsers of payload types and the functions that
`pydoc.locate` finds are parameters. -/

namespace NexusSdk.Input

open Lib

/-- A Python value as far as this code tells values apart. -/
inductive PyValue
  | str (s : String)
  | bytes (b : ByteArray)
  | other (typeName : String)

/-- A subclass of `AlgorithmPayload` with its `from_json`. -/
structure PayloadType (α : Type) where
  name : String
  fromJson : PyValue → Except PyExc α

/-- A parsed envelope; the parser does not check the types of its fields. -/
structure CompressedPayload where
  content : PyValue
  decompressionImportPath : PyValue

/-- What the reader takes from other modules. -/
structure Modules where
  /-- `pydoc.locate`; `none` for a path at which nothing or nothing callable is found -/
  locate : String → Except PyExc (Option (ByteArray → Except PyExc PyValue))
  /-- `CompressedPayload.from_json` -/
  compressedFromJson : PyValue → Except PyExc CompressedPayload

/-! ### Decompression -/

def binasciiError : PyClass := .extend "binascii.Error" [valueError]

def base64Error : Base64.Error → PyExc
  | .dataCharacters count => .raised binasciiError
      (s!"Invalid base64-encoded string: number of data characters ({count}) cannot be 1 more " ++
        "than a multiple of 4")
  | .padding => .raised binasciiError "Incorrect padding"

def b64decode : PyValue → Except PyExc ByteArray
  | .str s =>
    if s.toList.all fun c => c.val < 128 then
      ((Base64.decode s.toList).mapError base64Error).map List.toByteArray
    else .error (.raised valueError "string argument should contain only ASCII characters")
  | .bytes b =>
    ((Base64.decode (b.data.toList.map Char.ofUInt8)).mapError base64Error).map List.toByteArray
  | .other typeName => .error (.raised typeError
      s!"argument should be a bytes-like object or ASCII string, not '{typeName}'")

def b64encode (b : ByteArray) : String := .ofList (Base64.encode b.data.toList)

def CompressedPayload.decompress (m : Modules) (c : CompressedPayload) : Except PyExc PyValue :=
  match c.decompressionImportPath with
  -- `locate` splits the path first
  | .bytes _ => .error (.raised typeError "a bytes-like object is required, not 'str'")
  | .other typeName =>
    .error (.raised attributeError s!"'{typeName}' object has no attribute 'split'")
  | .str path => do
    match ← m.locate path with
    | none => .error (.raised fatalStartupConfigurationError
        ("Failed to decompress payload: Could not locate or call the decompression function at " ++
          s!"'{path}' "))
    | some decompressionFunction =>
      match b64decode c.content with
      | .error e => .error (.raisedFrom fatalStartupConfigurationError
          s!"Failed to decode base64 content: {e.arg}" e)
      | .ok compressedBytes => decompressionFunction compressedBytes

/-! ### The reader -/

structure AlgorithmPayloadReader (α : Type) where
  payloadType : PayloadType α
  saveContent : Bool
  payload : Option α
  payloadStr : Option String
  readExc : Option PyExc

namespace AlgorithmPayloadReader

variable {α β : Type}

def init (payloadType : PayloadType α) (saveContent : Bool) : AlgorithmPayloadReader α :=
  ⟨payloadType, saveContent, none, none, none⟩

def tryParse (r : AlgorithmPayloadReader α) (payloadData : PyValue) : AlgorithmPayloadReader α :=
  match r.payloadType.fromJson payloadData with
  | .ok payload => { r with payload := some payload }
  | .error e => { r with readExc := some e }

/-- The data that is parsed: the decompressed content of an envelope, or the body itself. -/
def payloadData (m : Modules) (content : ByteArray) : Except PyExc PyValue :=
  match m.compressedFromJson (.bytes content) with
  | .ok compressedPayload => compressedPayload.decompress m
  | .error _ => .ok (.bytes content)

/-- `__aenter__`, with the outcome of the download. -/
def aenter (m : Modules) (r : AlgorithmPayloadReader α) (response : Except PyExc ByteArray) :
    Except PyExc (AlgorithmPayloadReader α) := do
  let content ← response
  let data ← payloadData m content
  let r := r.tryParse data
  if r.saveContent then
    let text ← decodeUtf8 content
    return { r with payloadStr := some text }
  else return r

/-- Morph payload into a new type, using cached JSON string. -/
def morph (r : AlgorithmPayloadReader α) (targetType : PayloadType β) :
    AlgorithmPayloadReader α × Option β :=
  let outcome : Except PyExc β := match r.payloadStr with
    | none => .error (.raised fatalStartupConfigurationError
        ("Cannot morph payload into target type - bootstrap payload not cached. " ++
          "Please call reader with save_content = True"))
    | some text => targetType.fromJson (.str text)
  match outcome with
  | .ok payload => (r, some payload)
  | .error e => ({ r with readExc := some e }, none)

end AlgorithmPayloadReader

/-! ### Reading and morphing -/

theorem b64decode_b64encode (b : ByteArray) : b64decode (.str (b64encode b)) = .ok b := by
  have hascii : (Base64.encode b.data.toList).all (fun c => c.val < 128) = true :=
    List.all_eq_true.mpr fun c hc => decide_eq_true (Base64.ascii_of_mem_encode hc)
  have hbytes : b.data.toList.toByteArray = b := by
    apply ByteArray.ext
    rw [List.data_toByteArray, Array.toArray_toList]
  rw [b64decode, b64encode, String.toList_ofList, if_pos hascii, Base64.decode_encode]
  simp only [Except.mapError, Except.map, hbytes]

/-- An envelope of compressed data is decompressed if its path locates a function that inverts the
compression. -/
theorem decompress_envelope {m : Modules} {path : String}
    {decompress : ByteArray → Except PyExc PyValue} {compressed : ByteArray}
    (hlocate : m.locate path = .ok (some decompress)) :
    (CompressedPayload.mk (.str (b64encode compressed)) (.str path)).decompress m =
      decompress compressed := by
  simp only [CompressedPayload.decompress, hlocate, b64decode_b64encode]
  rfl

namespace AlgorithmPayloadReader

variable {α β : Type} {m : Modules} {T : PayloadType α} {content : ByteArray} {data : PyValue}

/-- Reading ends with an exception, or with the content that was parsed. -/
theorem aenter_eq (m : Modules) (r : AlgorithmPayloadReader α) (content : ByteArray) :
    r.aenter m (.ok content) = (payloadData m content).bind fun data =>
      if r.saveContent then
        (decodeUtf8 content).map fun text => { r.tryParse data with payloadStr := some text }
      else .ok (r.tryParse data) := by
  show (payloadData m content).bind _ = _
  congr 1
  funext data
  have hsave : (r.tryParse data).saveContent = r.saveContent := by
    unfold tryParse
    split <;> rfl
  rw [← hsave]
  show (if (r.tryParse data).saveContent then _ else _) = _
  split
  · cases decodeUtf8 content <;> rfl
  · rfl

/-- A payload that was read is the parsed content, and its text is kept on demand. -/
theorem of_aenter {saveContent : Bool} {r : AlgorithmPayloadReader α} {payload : α}
    (h : (init T saveContent).aenter m (.ok content) = .ok r)
    (hpayload : r.payload = some payload) :
    (∃ data, payloadData m content = .ok data ∧ T.fromJson data = .ok payload) ∧
      (saveContent = true → ∃ text, decodeUtf8 content = .ok text ∧ r.payloadStr = some text) := by
  rw [aenter_eq] at h
  cases hdata : payloadData m content with
  | error e =>
    rw [hdata] at h
    cases h
  | ok data =>
    rw [hdata] at h
    have hparsed : ((init T saveContent).tryParse data).payload = some payload →
        T.fromJson data = .ok payload := by
      unfold tryParse
      cases hjson : T.fromJson data with
      | error e => simp [init, hjson]
      | ok _ => simp [init, hjson]
    cases saveContent with
    | false =>
      obtain rfl := Except.ok.inj h
      exact ⟨⟨data, rfl, hparsed hpayload⟩, fun hsave => by cases hsave⟩
    | true =>
      cases htext : decodeUtf8 content with
      | error e =>
        rw [htext] at h
        cases h
      | ok text =>
        rw [htext] at h
        obtain rfl := Except.ok.inj h
        exact ⟨⟨data, rfl, hparsed hpayload⟩, fun _ => ⟨text, rfl, rfl⟩⟩

/-- A payload is morphed from the cached text. -/
theorem of_morph {r : AlgorithmPayloadReader β} {payload : α} (h : (r.morph T).2 = some payload) :
    ∃ text, r.payloadStr = some text ∧ T.fromJson (.str text) = .ok payload := by
  unfold morph at h
  cases htext : r.payloadStr with
  | none =>
    rw [htext] at h
    cases h
  | some text =>
    refine ⟨text, rfl, ?_⟩
    rw [htext] at h
    cases hjson : T.fromJson (.str text) with
    | error e =>
      simp only [hjson] at h
      cases h
    | ok _ =>
      simp only [hjson] at h
      rw [Option.some.inj h]

end AlgorithmPayloadReader

end NexusSdk.Input
