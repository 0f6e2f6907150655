import NexusSdk.Input.PayloadReader

/-! Whether compression is transparent to `morph`.  The first parse reads the decompressed data, but
`morph` parses the saved text, which is that of the envelope. -/

namespace NexusSdk.Input

open Lib AlgorithmPayloadReader

variable {α β : Type}

/-- The body is read with `save_content=True` and morphed: the value, or the recorded exception. -/
def readAndMorph (m : Modules) (bootstrapType : PayloadType α) (targetType : PayloadType β)
    (content : ByteArray) : Except PyExc (Except (Option PyExc) β) := do
  let reader ← (init bootstrapType true).aenter m (.ok content)
  match reader.morph targetType with
  | (_, some payload) => return .ok payload
  | (reader, none) => return .error reader.readExc

theorem readAndMorph_eq (m : Modules) (bootstrapType : PayloadType α) (targetType : PayloadType β)
    (content : ByteArray) :
    readAndMorph m bootstrapType targetType content =
      (payloadData m content).bind fun _ => (decodeUtf8 content).map fun text =>
        (targetType.fromJson (.str text)).mapError some := by
  unfold readAndMorph
  rw [aenter_eq]
  cases payloadData m content with
  | error e => rfl
  | ok data =>
  cases decodeUtf8 content with
  | error e => rfl
  | ok text =>
    cases h : targetType.fromJson (.str text) with
    | ok payload => simp [Except.bind, bind, init, Except.map, morph, h, pure, Except.pure,
        Except.mapError]
    | error e => simp [Except.bind, bind, init, Except.map, morph, h, pure, Except.pure,
        Except.mapError]

theorem mapError_some_inj {x y : Except PyExc β} :
    x.mapError some = y.mapError some ↔ x = y := by
  cases x <;> cases y <;> simp [Except.mapError]

/-- A compressed document morphs as the plain one exactly if the plain one can be read and the
target type makes the same of the text of the envelope as of the text of the document. -/
theorem compression_transparent_iff (m : Modules) (bootstrapType : PayloadType α)
    (targetType : PayloadType β) (document : ByteArray) (compress : ByteArray → ByteArray)
    (decompress : ByteArray → Except PyExc PyValue) (path envelope : String)
    (hinverse : ∀ b, decompress (compress b) = .ok (.bytes b))
    (hlocate : m.locate path = .ok (some decompress))
    (henvelope : m.compressedFromJson (.bytes envelope.toUTF8) =
      .ok ⟨.str (b64encode (compress document)), .str path⟩) :
    readAndMorph m bootstrapType targetType envelope.toUTF8 =
        readAndMorph m bootstrapType targetType document ↔
      (∃ data, payloadData m document = .ok data) ∧
        ∃ text, decodeUtf8 document = .ok text ∧
          targetType.fromJson (.str envelope) = targetType.fromJson (.str text) := by
  have hdata : payloadData m envelope.toUTF8 = .ok (.bytes document) := by
    simp only [payloadData, henvelope]
    rw [decompress_envelope hlocate, hinverse]
  rw [readAndMorph_eq, readAndMorph_eq, hdata, decodeUtf8_toUTF8]
  cases hplain : payloadData m document with
  | error e => simp [Except.bind, Except.map]
  | ok data =>
  cases htext : decodeUtf8 document with
  | error e => simp [Except.bind, Except.map]
  | ok text => simp [Except.bind, Except.map, mapError_some_inj]

/-- A document, and its envelope for the codec that changes nothing. -/
def document : String := "\x7b\"x\": 1\x7d"

def envelope : String :=
  "\x7b\"content\": \"" ++ b64encode document.toUTF8 ++
    "\", \"decompression_import_path\": \"bytes\"\x7d"

def PyValue.json : PyValue → Option String
  | .str s => some s
  | .bytes b => String.fromUTF8? b
  | .other _ => none

theorem json_toUTF8 (s : String) : (PyValue.bytes s.toUTF8).json = some s := dif_pos s.isValidUTF8

/-- Modules in which `bytes` is the decompression function. -/
def modules : Modules where
  locate path := .ok (if path = "bytes" then some fun b => .ok (.bytes b) else none)
  compressedFromJson v :=
    if v.json = some envelope then .ok ⟨.str (b64encode document.toUTF8), .str "bytes"⟩
    else .error (.raised keyError "content")

/-- The payload type of the document; any other text lacks its field. -/
def documentType : PayloadType Nat where
  name := "Document"
  fromJson v :=
    if v.json = some document then .ok 1
    else .error (.raised keyError "x")

theorem envelope_ne_document : envelope ≠ document := by decide +kernel

theorem compressedFromJson_envelope :
    modules.compressedFromJson (.bytes envelope.toUTF8) =
      .ok ⟨.str (b64encode document.toUTF8), .str "bytes"⟩ := by
  simp only [modules, json_toUTF8, if_true]

theorem compression_transparent_iff_document :
    readAndMorph modules documentType documentType envelope.toUTF8 =
        readAndMorph modules documentType documentType document.toUTF8 ↔
      (∃ data, payloadData modules document.toUTF8 = .ok data) ∧
        ∃ text, decodeUtf8 document.toUTF8 = .ok text ∧
          documentType.fromJson (.str envelope) = documentType.fromJson (.str text) :=
  compression_transparent_iff modules documentType documentType document.toUTF8 id
    (fun b => .ok (.bytes b)) "bytes" envelope (fun _ => rfl) rfl compressedFromJson_envelope

/-- The document morphs into its own type, the envelope of the same document does not. -/
theorem compression_not_transparent :
    modules.locate "bytes" = .ok (some fun b => .ok (.bytes b)) ∧
      modules.compressedFromJson (.bytes envelope.toUTF8) =
        .ok ⟨.str (b64encode document.toUTF8), .str "bytes"⟩ ∧
      readAndMorph modules documentType documentType document.toUTF8 = .ok (.ok 1) ∧
      readAndMorph modules documentType documentType envelope.toUTF8 =
        .ok (.error (some (.raised keyError "x"))) := by
  have hplain : payloadData modules document.toUTF8 = .ok (.bytes document.toUTF8) := by
    have herror : modules.compressedFromJson (.bytes document.toUTF8) =
        .error (.raised keyError "content") := by
      simp only [modules, json_toUTF8]
      exact if_neg fun h => envelope_ne_document (Option.some.inj h).symm
    simp only [payloadData, herror]
  have henvelope : payloadData modules envelope.toUTF8 = .ok (.bytes document.toUTF8) := by
    simp only [payloadData, compressedFromJson_envelope]
    have hlocate : modules.locate "bytes" = .ok (some fun b => .ok (.bytes b)) := rfl
    rw [decompress_envelope hlocate]
  have hmorph : documentType.fromJson (.str envelope) = .error (.raised keyError "x") := by
    simp only [documentType, PyValue.json]
    exact if_neg fun h => envelope_ne_document (Option.some.inj h)
  refine ⟨rfl, compressedFromJson_envelope, ?_, ?_⟩
  · rw [readAndMorph_eq, hplain, decodeUtf8_toUTF8]
    simp [Except.bind, Except.map, documentType, PyValue.json, Except.mapError]
  · rw [readAndMorph_eq, henvelope, decodeUtf8_toUTF8]
    simp [Except.bind, Except.map, hmorph, Except.mapError]

end NexusSdk.Input
