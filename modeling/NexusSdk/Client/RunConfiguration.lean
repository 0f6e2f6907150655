import NexusSdk.Client.Models
import NexusSdk.Lib.Utf8
import Mathlib.Algebra.Group.Int.Defs

/-! `SdkCustomRunConfiguration.create`: the overrides of a run, as the C structure that the Go library
reads.  A null pointer, the deadline 0 and the retries -1 stand for what is not overridden. -/

namespace NexusSdk.Client

open Lib

/-- The arguments of `create`. -/
structure RunOverrides where
  version : Option String := none
  workgroupName : Option String := none
  cpuLimit : Option String := none
  memoryLimit : Option String := none
  cpuRequest : Option String := none
  memoryRequest : Option String := none
  workgroupGroup : Option String := some "science.sneaksanddata.com/v1"
  workgroupKind : Option String := some "NexusAlgorithmWorkgroup"
  maxDeadlineSeconds : Option Int := none
  maxRetries : Option Int := none

/-- A `c_char_p` holds the bytes before the first zero. -/
structure SdkCustomRunConfiguration where
  version : Option ByteArray
  workgroupName : Option ByteArray
  workgroupGroup : Option ByteArray
  workgroupKind : Option ByteArray
  cpuLimit : Option ByteArray
  memoryLimit : Option ByteArray
  cpuRequest : Option ByteArray
  memoryRequest : Option ByteArray
  deadlineSeconds : Int32
  maximumRetries : Int32

/-- `c_char_p(b)`, as it is read. -/
def charP (b : ByteArray) : ByteArray := (b.data.toList.takeWhile (· ≠ 0)).toByteArray

/-- `bytes(text, encoding="utf-8") if text else None`. -/
def encodeText : Option String → Option ByteArray
  | some text => if text ≠ "" then some (charP text.toUTF8) else none
  | none => none

/-- `number if number else notOverridden`, stored in a `c_int32`. -/
def encodeNumber (notOverridden : Int) : Option Int → Int32
  | some number => .ofInt (if number ≠ 0 then number else notOverridden)
  | none => .ofInt notOverridden

def deadlineNotOverridden : Int := 0

def retriesNotOverridden : Int := -1

def SdkCustomRunConfiguration.create (args : RunOverrides) : SdkCustomRunConfiguration where
  version := encodeText args.version
  workgroupName := encodeText args.workgroupName
  workgroupGroup := encodeText args.workgroupGroup
  workgroupKind := encodeText args.workgroupKind
  cpuLimit := encodeText args.cpuLimit
  memoryLimit := encodeText args.memoryLimit
  cpuRequest := encodeText args.cpuRequest
  memoryRequest := encodeText args.memoryRequest
  deadlineSeconds := encodeNumber deadlineNotOverridden args.maxDeadlineSeconds
  maximumRetries := encodeNumber retriesNotOverridden args.maxRetries

/-! ### Reading the structure -/

/-- A null pointer is read as no override; bytes that are no text cannot be read. -/
def decodeText : Option ByteArray → Option (Option String)
  | none => some none
  | some b => (String.fromUTF8? b).map some

def decodeNumber (notOverridden : Int) (number : Int32) : Option Int :=
  if number.toInt = notOverridden then none else some number.toInt

/-- The overrides that a structure stands for, by the sentinels of `create`. -/
def SdkCustomRunConfiguration.overrides (c : SdkCustomRunConfiguration) : Option RunOverrides := do
  return {
    version := ← decodeText c.version
    workgroupName := ← decodeText c.workgroupName
    cpuLimit := ← decodeText c.cpuLimit
    memoryLimit := ← decodeText c.memoryLimit
    cpuRequest := ← decodeText c.cpuRequest
    memoryRequest := ← decodeText c.memoryRequest
    workgroupGroup := ← decodeText c.workgroupGroup
    workgroupKind := ← decodeText c.workgroupKind
    maxDeadlineSeconds := decodeNumber deadlineNotOverridden c.deadlineSeconds
    maxRetries := decodeNumber retriesNotOverridden c.maximumRetries }

/-! ### What can be encoded -/

/-- An override that is a text is not empty and contains no NUL. -/
def TextEncodable (text : Option String) : Prop :=
  ∀ s, text = some s → s ≠ "" ∧ ∀ c ∈ s.toList, c.toNat ≠ 0

/-- An override that is a number is not zero, is not the sentinel, and fits into 32 bits. -/
def NumberEncodable (notOverridden : Int) (number : Option Int) : Prop :=
  ∀ n, number = some n → n ≠ 0 ∧ n ≠ notOverridden ∧ -2 ^ 31 ≤ n ∧ n < 2 ^ 31

structure RunOverrides.Encodable (args : RunOverrides) : Prop where
  version : TextEncodable args.version
  workgroupName : TextEncodable args.workgroupName
  cpuLimit : TextEncodable args.cpuLimit
  memoryLimit : TextEncodable args.memoryLimit
  cpuRequest : TextEncodable args.cpuRequest
  memoryRequest : TextEncodable args.memoryRequest
  workgroupGroup : TextEncodable args.workgroupGroup
  workgroupKind : TextEncodable args.workgroupKind
  maxDeadlineSeconds : NumberEncodable deadlineNotOverridden args.maxDeadlineSeconds
  maxRetries : NumberEncodable retriesNotOverridden args.maxRetries

/-- What is left of a text. -/
def keptText (s : String) : Option String := if s ≠ "" then some (beforeNul s) else none

theorem charP_toUTF8 (s : String) : charP s.toUTF8 = (beforeNul s).toUTF8 := by
  rw [charP, takeWhile_toUTF8]
  apply ByteArray.ext
  rw [List.data_toByteArray, Array.toArray_toList]

theorem decodeText_encodeText (text : Option String) :
    decodeText (encodeText text) = some (text.bind keptText) := by
  cases text with
  | none => rfl
  | some s =>
    by_cases hs : s = ""
    · subst hs
      rfl
    · have hdecode : String.fromUTF8? (beforeNul s).toUTF8 = some (beforeNul s) :=
        dif_pos (beforeNul s).isValidUTF8
      rw [encodeText, if_pos hs, charP_toUTF8]
      simp only [decodeText, hdecode, Option.map_some, Option.bind_some, keptText, ne_eq, hs,
        not_false_eq_true, if_true]

theorem bind_keptText_eq_iff {text : Option String} :
    text.bind keptText = text ↔ TextEncodable text := by
  cases text with
  | none => exact iff_of_true rfl (fun s hs => by cases hs)
  | some s =>
    unfold TextEncodable keptText
    by_cases hs : s = ""
    · simp [hs]
    · simp [hs, beforeNul_eq_iff]

theorem decodeNumber_encodeNumber_iff (notOverridden : Int) (hle : -2 ^ 31 ≤ notOverridden)
    (hlt : notOverridden < 2 ^ 31) (number : Option Int) :
    decodeNumber notOverridden (encodeNumber notOverridden number) = number ↔
      NumberEncodable notOverridden number := by
  have hsentinel : (Int32.ofInt notOverridden).toInt = notOverridden :=
    Int32.toInt_ofInt_of_le hle hlt
  unfold decodeNumber NumberEncodable
  cases number with
  | none => simp [encodeNumber, hsentinel]
  | some n =>
    by_cases hzero : n = 0
    · simp [encodeNumber, hzero, hsentinel]
    · rw [encodeNumber, if_pos hzero]
      constructor
      · intro heq m hm
        obtain rfl := Option.some.inj hm
        split at heq
        · cases heq
        · next hne =>
          have hkept := Option.some.inj heq
          rw [hkept] at hne
          have hlower := Int32.le_toInt (Int32.ofInt n)
          have hupper := Int32.toInt_lt (Int32.ofInt n)
          rw [hkept] at hlower hupper
          exact ⟨hzero, hne, hlower, hupper⟩
      · intro hall
        obtain ⟨-, hne, hlower, hupper⟩ := hall n rfl
        rw [Int32.toInt_ofInt_of_le hlower hupper, if_neg hne]

/-- What is read back from the structure, field by field. -/
theorem overrides_create (args : RunOverrides) :
    (SdkCustomRunConfiguration.create args).overrides = some {
      version := args.version.bind keptText
      workgroupName := args.workgroupName.bind keptText
      cpuLimit := args.cpuLimit.bind keptText
      memoryLimit := args.memoryLimit.bind keptText
      cpuRequest := args.cpuRequest.bind keptText
      memoryRequest := args.memoryRequest.bind keptText
      workgroupGroup := args.workgroupGroup.bind keptText
      workgroupKind := args.workgroupKind.bind keptText
      maxDeadlineSeconds := decodeNumber deadlineNotOverridden
        (encodeNumber deadlineNotOverridden args.maxDeadlineSeconds)
      maxRetries := decodeNumber retriesNotOverridden
        (encodeNumber retriesNotOverridden args.maxRetries) } := by
  unfold SdkCustomRunConfiguration.overrides SdkCustomRunConfiguration.create
  simp only [decodeText_encodeText]
  rfl

/-- The overrides are read back from the structure exactly if they can be encoded. -/
theorem overrides_create_iff (args : RunOverrides) :
    (SdkCustomRunConfiguration.create args).overrides = some args ↔ args.Encodable := by
  have hdeadline := decodeNumber_encodeNumber_iff deadlineNotOverridden (by decide) (by decide)
    args.maxDeadlineSeconds
  have hretries := decodeNumber_encodeNumber_iff retriesNotOverridden (by decide) (by decide)
    args.maxRetries
  rw [overrides_create, Option.some.injEq]
  obtain ⟨version, workgroupName, cpuLimit, memoryLimit, cpuRequest, memoryRequest, workgroupGroup,
    workgroupKind, maxDeadlineSeconds, maxRetries⟩ := args
  simp only [RunOverrides.mk.injEq, bind_keptText_eq_iff, hdeadline, hretries]
  constructor
  · rintro ⟨h1, h2, h3, h4, h5, h6, h7, h8, h9, h10⟩
    exact ⟨h1, h2, h3, h4, h5, h6, h7, h8, h9, h10⟩
  · rintro ⟨h1, h2, h3, h4, h5, h6, h7, h8, h9, h10⟩
    exact ⟨h1, h2, h3, h4, h5, h6, h7, h8, h9, h10⟩

/-- Zero retries are read as no override. -/
theorem zero_retries_not_encoded :
    (SdkCustomRunConfiguration.create { maxRetries := some 0 }).overrides.map
        RunOverrides.maxRetries = some none ∧
      (SdkCustomRunConfiguration.create { maxRetries := some 0 }).overrides ≠
        some { maxRetries := some 0 } := by
  have hread : (SdkCustomRunConfiguration.create { maxRetries := some 0 }).overrides.map
      RunOverrides.maxRetries = some none := by
    rw [overrides_create]
    rfl
  refine ⟨hread, fun heq => ?_⟩
  rw [heq] at hread
  cases hread

end NexusSdk.Client
