import NexusSdk.Input.PayloadReader
import NexusSdk.Lib.JsonRoundTrip
import NexusSdk.Lib.Utf8

/-! `json.loads` on Python values, and the payload types and envelopes that are parsed with it.
What `json` takes from the interpreter, floats and the other encodings, is a parameter. -/

namespace NexusSdk.Input

open Lib

inductive Encoding
  | utf8 | utf8Sig | utf16 | utf16be | utf16le | utf32 | utf32be | utf32le
  deriving DecidableEq

/-- `json.detect_encoding`: byte-order marks first, then the zeros among the first bytes. -/
def detectEncoding (b : List UInt8) : Encoding :=
  if [0x00, 0x00, 0xFE, 0xFF] <+: b ∨ [0xFF, 0xFE, 0x00, 0x00] <+: b then .utf32
  else if [0xFE, 0xFF] <+: b ∨ [0xFF, 0xFE] <+: b then .utf16
  else if [0xEF, 0xBB, 0xBF] <+: b then .utf8Sig
  else match b with
    | b0 :: b1 :: b2 :: b3 :: _ =>
      if b0 = 0 then if b1 ≠ 0 then .utf16be else .utf32be
      else if b1 = 0 then if b2 ≠ 0 ∨ b3 ≠ 0 then .utf16le else .utf32le
      else .utf8
    | [b0, b1] => if b0 = 0 then .utf16be else if b1 = 0 then .utf16le else .utf8
    | _ => .utf8

/-- The `json` module of the interpreter. -/
structure JsonModule (F : Type) where
  floats : Json.FloatFormat F
  /-- `b.decode(encoding, 'surrogatepass')` -/
  decode : Encoding → ByteArray → Except PyExc String
  decode_toUTF8 : ∀ s : String, decode .utf8 s.toUTF8 = .ok s
  /-- the `JSONDecodeError` of a text that is not a document -/
  decodeError : String → PyExc

namespace JsonModule

variable {F : Type} (J : JsonModule F)

def loadsText (s : String) : Except PyExc (Json F) :=
  match Json.loads J.floats s.toList with
  | some v => .ok v
  | none => .error (J.decodeError s)

/-- `json.loads`. -/
def loads : PyValue → Except PyExc (Json F)
  | .str s => J.loadsText s
  | .bytes b => (J.decode (detectEncoding b.data.toList) b).bind J.loadsText
  | .other typeName => .error (.raised typeError
      s!"the JSON object must be str, bytes or bytearray, not {typeName}")

/-- `json.dumps`. -/
def dumps (v : Json F) : String := .ofList (Json.dumps J.floats v)

end JsonModule

/-- A payload type whose `from_json` parses the document and builds the object from its value. -/
structure JsonPayloadType {F : Type} (J : JsonModule F) (α : Type) extends PayloadType α where
  toJson : α → String
  fromDict : Json F → Except PyExc α
  fromJson_eq : ∀ v, fromJson v = (J.loads v).bind fromDict

/-! ### Envelopes -/

/-- `CompressedPayload.CONTENT`. -/
def contentField : String := "content"

/-- `CompressedPayload.DECOMPRESSION_IMPORT_PATH`. -/
def decompressionImportPathField : String := "decompression_import_path"

def hasEnvelopeKeys {F : Type} : Json F → Bool
  | .obj members =>
    (members.lookup (Json.units contentField)).isSome &&
      (members.lookup (Json.units decompressionImportPathField)).isSome
  | _ => false

/-- `CompressedPayload.from_json` succeeds on the objects that have both keys, and takes its fields
from them. -/
structure ParsesEnvelopes {F : Type} (J : JsonModule F) (m : Modules) : Prop where
  succeeds_iff : ∀ data, (∃ c, m.compressedFromJson data = .ok c) ↔
    ∃ v, J.loads data = .ok v ∧ hasEnvelopeKeys v = true
  fields : ∀ data members content path, J.loads data = .ok (.obj members) →
    members.lookup (Json.units contentField) = some (Json.ofString content) →
    members.lookup (Json.units decompressionImportPathField) = some (Json.ofString path) →
    m.compressedFromJson data = .ok ⟨.str content, .str path⟩

/-! ### Documents in UTF-8 -/

theorem detectEncoding_ascii {b0 : UInt8} {rest : List UInt8} (hpos : b0 ≠ 0) (hlt : b0 < 128)
    (hrest : rest.head? ≠ some 0) : detectEncoding (b0 :: rest) = .utf8 := by
  have hne (b : UInt8) (hb : ¬ b < 128) : b ≠ b0 := by
    rintro rfl
    exact hb hlt
  have h1 := hne 0xFF (by decide)
  have h2 := hne 0xFE (by decide)
  have h3 := hne 0xEF (by decide)
  unfold detectEncoding
  simp only [List.cons_prefix_cons, hpos.symm, h1, h2, h3, false_and, or_self, if_false]
  split
  · next heq =>
    obtain ⟨rfl, rfl⟩ := List.cons_eq_cons.mp heq
    rw [if_neg hpos, if_neg (by simpa using hrest)]
  · next heq =>
    obtain ⟨rfl, rfl⟩ := List.cons_eq_cons.mp heq
    rw [if_neg hpos, if_neg (by simpa using hrest)]
  · rfl

theorem detectEncoding_toUTF8 {s : String} (h : Json.StartsAscii s.toList) :
    detectEncoding s.toUTF8.data.toList = .utf8 := by
  obtain ⟨c, r, hcons, hpos, hlt, hrest⟩ := h
  obtain ⟨b, hb, hne, hsmall⟩ := utf8EncodeChar_ascii hpos hlt
  rw [toList_toUTF8, hcons, List.flatMap_cons, hb, List.singleton_append]
  refine detectEncoding_ascii hne hsmall ?_
  cases r with
  | nil => simp
  | cons d r =>
    obtain ⟨b', rest, hd, hb'⟩ := head_utf8EncodeChar (hrest d rfl)
    rw [List.flatMap_cons, hd]
    simpa using hb'

namespace JsonModule

variable {F : Type} {J : JsonModule F}

theorem loads_str {s : String} {v : Json F} :
    J.loads (.str s) = .ok v ↔ Json.loads J.floats s.toList = some v := by
  show J.loadsText s = .ok v ↔ _
  unfold loadsText
  split <;> simp [*]

/-- A document is read from its UTF-8 bytes as from its text. -/
theorem loads_toUTF8 {s : String} {v : Json F} (h : J.loads (.str s) = .ok v) :
    J.loads (.bytes s.toUTF8) = .ok v := by
  have hstart := Json.startsAscii_of_loads (loads_str.mp h)
  show (J.decode (detectEncoding s.toUTF8.data.toList) s.toUTF8).bind J.loadsText = .ok v
  rw [detectEncoding_toUTF8 hstart, J.decode_toUTF8]
  exact h

theorem loads_dumps {v : Json F} (h : v.Wf) : J.loads (.str (J.dumps v)) = .ok v := by
  rw [loads_str, dumps, String.toList_ofList]
  exact Json.loads_dumps h

end JsonModule

namespace JsonPayloadType

variable {F α : Type} {J : JsonModule F} {T : JsonPayloadType J α}

/-- What is read from a document is read from every document with the same value. -/
theorem fromJson_congr {data data' : PyValue} {p : α} {v : Json F}
    (hparse : T.fromJson data = .ok p) (hdata : J.loads data = .ok v)
    (hdata' : J.loads data' = .ok v) : T.fromJson data' = .ok p := by
  rw [T.fromJson_eq, hdata] at hparse
  rw [T.fromJson_eq, hdata']
  exact hparse

/-- What can be parsed is a document. -/
theorem loads_of_fromJson {data : PyValue} {p : α} (h : T.fromJson data = .ok p) :
    ∃ v, J.loads data = .ok v := by
  rw [T.fromJson_eq] at h
  cases hloads : J.loads data with
  | error e =>
    rw [hloads] at h
    cases h
  | ok v => exact ⟨v, rfl⟩

end JsonPayloadType

end NexusSdk.Input
