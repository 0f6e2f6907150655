import NexusSdk.Client.Models

/-! The receiver client, and how the six decoders classify the errors of the Go library. -/

namespace NexusSdk.Client

/-! ### `NexusReceiverClient` -/

def completeRun (response : Option SdkErrorResponse) : Except PyExc Unit :=
  match ErrorResponse.fromSdkResponse response with
  | none => .error (.raised sdkError ("No response received from the SDK when trying to complete a " ++
      "run. This is a bug in the SDK and should be reported to the project."))
  | some maybeError =>
    match maybeError.error with
    | none => .ok ()
    | some e => .error e

def checkRun (result : Option SdkBoolResult) : Except PyExc (Option Bool) :=
  match BoolResult.fromSdkResult result with
  | none => .error (.raised sdkError ("No result received from the SDK when trying to check a run. " ++
      "This is a bug in the SDK and should be reported to the project."))
  | some maybeResult =>
    match maybeResult.error with
    | none => .ok maybeResult.result
    | some e => .error e

/-- The bytes of an error type never match a name, so no error of the library is reported. -/
theorem completeRun_some (response : SdkErrorResponse) : completeRun (some response) = .ok () := by
  unfold completeRun ErrorResponse.fromSdkResponse PySdkType.error
  cases h : response.clientErrorType <;> simp [h, PyText.ofCharP]

theorem checkRun_some (result : SdkBoolResult) :
    checkRun (some result) = .ok (if result.result = -1 then none else some (result.result != 0)) := by
  unfold checkRun BoolResult.fromSdkResult PySdkType.error
  cases h : result.clientErrorType <;> simp [h, PyText.ofCharP]

/-! ### Classification -/

/-- The class of the error that a decoded struct reports, or the exception of the decoder. -/
def classify (r : Except PyExc (Option PySdkType)) : Except PyExc (Option PyClass) :=
  r.map fun o => (o.bind PySdkType.error).map PyExc.cls

/-- The known error that the bytes of an error type name. -/
def carriedError (ty : CharP) : Option PyClass := (ty.bind String.fromUTF8?).bind errorClass

def decodes (field : CharP) : Bool := field.all fun b => (String.fromUTF8? b).isSome

def decoded (field : CharP) : Option String :=
  field.bind fun b => if b.isEmpty then none else String.fromUTF8? b

theorem eq_empty_of_isEmpty {b : ByteArray} (h : b.isEmpty = true) : b = ByteArray.empty :=
  ByteArray.size_eq_zero_iff.mp (by simpa [ByteArray.isEmpty] using h)

theorem decodeField_eq (field : CharP) :
    decodeField field = if decodes field then .ok (decoded field) else .error invalidUtf8 := by
  cases field with
  | none => rfl
  | some b =>
    cases hempty : b.isEmpty with
    | true =>
      obtain rfl := eq_empty_of_isEmpty hempty
      rfl
    | false =>
      cases hdecode : String.fromUTF8? b <;>
        simp [decodeField, decodes, decoded, hempty, hdecode, decodeUtf8, Except.map]

theorem error_ofOption_decoded_eq (ty : CharP) (msg : PyText) :
    PySdkType.error ⟨.ofOption (decoded ty), msg⟩ =
      (carriedError ty).map fun cls => .raised cls msg.text := by
  cases ty with
  | none => rfl
  | some b =>
    cases hempty : b.isEmpty with
    | true =>
      obtain rfl := eq_empty_of_isEmpty hempty
      rfl
    | false =>
      cases hdecode : String.fromUTF8? b with
      | none => simp [decoded, hempty, hdecode, carriedError, PyText.ofOption, PySdkType.error]
      | some s => simp [decoded, hempty, hdecode, carriedError, PyText.ofOption, PySdkType.error]

theorem error_ofOption_decoded (ty : CharP) (msg : PyText) :
    (PySdkType.error ⟨.ofOption (decoded ty), msg⟩).map PyExc.cls = carriedError ty := by
  rw [error_ofOption_decoded_eq, Option.map_map]
  exact Option.map_id' ..

theorem carriedError_toUTF8 (name : String) :
    carriedError (some name.toUTF8) = errorClass name := by
  have hdecode : String.fromUTF8? name.toUTF8 = some name := dif_pos name.isValidUTF8
  rw [carriedError, Option.bind_some, hdecode]
  rfl

theorem decodes_toUTF8 (text : String) : decodes (some text.toUTF8) = true := by
  have hdecode : String.fromUTF8? text.toUTF8 = some text := dif_pos text.isValidUTF8
  rw [decodes, Option.all_some, hdecode, Option.isSome_some]

theorem bind_decodeField {α : Type} (field : CharP) (k : Option String → Except PyExc α) :
    decodeField field >>= k = if decodes field then k (decoded field) else .error invalidUtf8 := by
  rw [decodeField_eq]
  split <;> rfl

def SdkRunResult.fields (r : SdkRunResult) : List CharP :=
  [r.algorithm, r.requestId, r.resultUri, r.runErrorMessage, r.clientErrorType,
    r.clientErrorMessage, r.status]

def SdkAlgorithmRun.fields (r : SdkAlgorithmRun) : List CharP :=
  [r.requestId, r.clientErrorType, r.clientErrorMessage]

def SdkStringResult.fields (r : SdkStringResult) : List CharP :=
  [r.result, r.clientErrorType, r.clientErrorMessage]

/-- The fields that the decoder decodes, without the API version. -/
def SdkRequestMetadata.fields (r : SdkRequestMetadata) : List CharP :=
  [r.algorithm, r.id, r.algorithmFailureCause, r.algorithmFailureDetails, r.appliedConfiguration,
    r.configurationOverrides, r.contentHash, r.jobUid, r.lastModified, r.lifecycleStage,
    r.parentJob, r.payloadUri, r.receivedAt, r.receivedByHost, r.resultUri, r.sentAt, r.tag,
    r.clientErrorType, r.clientErrorMessage]

/-- The end of the results carries no error, so reading it as `None` hides none. -/
theorem classify_runResult (r : SdkRunResult) :
    classify ((RunResult.fromSdkResult (some r)).map (Option.map RunResult.toPySdkType)) =
      if r.fields.all decodes then .ok (carriedError r.clientErrorType)
      else .error invalidUtf8 := by
  simp only [RunResult.fromSdkResult, bind_decodeField, ← ite_and, SdkRunResult.fields,
    List.all_cons, List.all_nil, Bool.and_true, Bool.and_eq_true]
  split
  · have hclass := error_ofOption_decoded r.clientErrorType
      (.ofOption (decoded r.clientErrorMessage))
    split
    · next hempty =>
      have htype : PyText.ofOption (decoded r.clientErrorType) = .none := by
        simp only [RunResult.isEmpty, Bool.and_eq_true] at hempty
        exact PyText.isNone_iff.mp hempty.1.2
      rw [htype] at hclass
      exact congrArg Except.ok hclass
    · exact congrArg Except.ok hclass
  · rfl

theorem classify_algorithmRun (r : SdkAlgorithmRun) :
    classify ((AlgorithmRun.fromSdkRun (some r)).map (Option.map AlgorithmRun.toPySdkType)) =
      if r.fields.all decodes then .ok (carriedError r.clientErrorType)
      else .error invalidUtf8 := by
  simp only [AlgorithmRun.fromSdkRun, bind_decodeField, ← ite_and, SdkAlgorithmRun.fields,
    List.all_cons, List.all_nil, Bool.and_true, Bool.and_eq_true]
  split
  · exact congrArg Except.ok (error_ofOption_decoded _ _)
  · rfl

theorem classify_stringResult (r : SdkStringResult) :
    classify ((StringResult.fromSdkResult (some r)).map (Option.map StringResult.toPySdkType)) =
      if r.fields.all decodes then .ok (carriedError r.clientErrorType)
      else .error invalidUtf8 := by
  simp only [StringResult.fromSdkResult, bind_decodeField, ← ite_and, SdkStringResult.fields,
    List.all_cons, List.all_nil, Bool.and_true, Bool.and_eq_true]
  split
  · exact congrArg Except.ok (error_ofOption_decoded _ _)
  · rfl

theorem classify_requestMetadata (r : SdkRequestMetadata) :
    classify ((RequestMetadata.fromSdkResult (some r)).map (Option.map RequestMetadata.toPySdkType)) =
      if r.fields.all decodes then .ok (carriedError r.clientErrorType)
      else .error invalidUtf8 := by
  simp only [RequestMetadata.fromSdkResult, bind_decodeField, ← ite_and, SdkRequestMetadata.fields,
    List.all_cons, List.all_nil, Bool.and_true, Bool.and_eq_true]
  split
  · exact congrArg Except.ok (error_ofOption_decoded _ _)
  · rfl

/-! ### The six decoders together -/

structure Responses where
  runResult : SdkRunResult
  algorithmRun : SdkAlgorithmRun
  requestMetadata : SdkRequestMetadata
  stringResult : SdkStringResult
  errorResponse : SdkErrorResponse
  boolResult : SdkBoolResult

namespace Responses

def errorTypes (r : Responses) : List CharP :=
  [r.runResult.clientErrorType, r.algorithmRun.clientErrorType, r.requestMetadata.clientErrorType,
    r.stringResult.clientErrorType, r.errorResponse.clientErrorType, r.boolResult.clientErrorType]

/-- The fields that the scheduler's decoders decode. -/
def decodedFields (r : Responses) : List CharP :=
  r.runResult.fields ++ r.algorithmRun.fields ++ r.requestMetadata.fields ++ r.stringResult.fields

def classifications (r : Responses) : List (Except PyExc (Option PyClass)) :=
  [classify ((RunResult.fromSdkResult (some r.runResult)).map (Option.map RunResult.toPySdkType)),
    classify ((AlgorithmRun.fromSdkRun (some r.algorithmRun)).map
      (Option.map AlgorithmRun.toPySdkType)),
    classify ((RequestMetadata.fromSdkResult (some r.requestMetadata)).map
      (Option.map RequestMetadata.toPySdkType)),
    classify ((StringResult.fromSdkResult (some r.stringResult)).map
      (Option.map StringResult.toPySdkType)),
    classify (.ok ((ErrorResponse.fromSdkResponse (some r.errorResponse)).map
      ErrorResponse.toPySdkType)),
    classify (.ok ((BoolResult.fromSdkResult (some r.boolResult)).map BoolResult.toPySdkType))]

end Responses

/-- The structs that carry the error type `ty` are classified alike, and the receiver client raises
the error that they carry. -/
structure NoErrorLost (r : Responses) (ty : CharP) : Prop where
  agree : ∃ c, ∀ c' ∈ r.classifications, c' = c
  completeRaises : ∀ cls, carriedError ty = some cls →
    ∃ e, completeRun (some r.errorResponse) = .error e ∧ e.cls = cls
  checkRaises : ∀ cls, carriedError ty = some cls →
    ∃ e, checkRun (some r.boolResult) = .error e ∧ e.cls = cls
  completeReturns : completeRun (some r.errorResponse) = .ok () → carriedError ty = none

theorem classify_ofCharP (ty : CharP) (msg : PyText) :
    classify (.ok (some ⟨.ofCharP ty, msg⟩)) = .ok none := by
  cases ty <;> rfl

/-- No error is lost exactly if the type is none of the known ones and the fields that the
scheduler's decoders decode are valid UTF-8. -/
theorem no_error_lost_iff (r : Responses) (ty : CharP) (h : ∀ ty' ∈ r.errorTypes, ty' = ty) :
    NoErrorLost r ty ↔ carriedError ty = none ∧ r.decodedFields.all decodes = true := by
  simp only [Responses.errorTypes, List.forall_mem_cons, List.not_mem_nil, false_implies,
    implies_true, and_true] at h
  obtain ⟨hrun, halg, hmeta, hstr, herr, hbool⟩ := h
  have hclasses : r.classifications =
      [if r.runResult.fields.all decodes then .ok (carriedError ty) else .error invalidUtf8,
        if r.algorithmRun.fields.all decodes then .ok (carriedError ty) else .error invalidUtf8,
        if r.requestMetadata.fields.all decodes then .ok (carriedError ty) else .error invalidUtf8,
        if r.stringResult.fields.all decodes then .ok (carriedError ty) else .error invalidUtf8,
        .ok none, .ok none] := by
    rw [Responses.classifications, classify_runResult, classify_algorithmRun,
      classify_requestMetadata, classify_stringResult, hrun, halg, hmeta, hstr]
    simp only [ErrorResponse.fromSdkResponse, BoolResult.fromSdkResult, Option.map_some,
      classify_ofCharP]
  have hsame (b : Bool) :
      (if b then .ok none else .error invalidUtf8 : Except PyExc (Option PyClass)) = .ok none ↔
        b = true := by
    cases b <;> simp
  rw [Responses.decodedFields, List.all_append, List.all_append, List.all_append]
  constructor
  · intro hlost
    have hnone := hlost.completeReturns (completeRun_some r.errorResponse)
    obtain ⟨c, hc⟩ := hlost.agree
    rw [hclasses, hnone] at hc
    obtain rfl : .ok none = c := hc _ (by simp)
    simp only [List.forall_mem_cons, hsame] at hc
    obtain ⟨hfields₁, hfields₂, hfields₃, hfields₄, -⟩ := hc
    exact ⟨hnone, by rw [hfields₁, hfields₂, hfields₃, hfields₄]; rfl⟩
  · rintro ⟨hnone, hfields⟩
    simp only [Bool.and_eq_true] at hfields
    obtain ⟨⟨⟨hfields₁, hfields₂⟩, hfields₃⟩, hfields₄⟩ := hfields
    refine ⟨⟨.ok none, ?_⟩, ?_, ?_, fun _ => hnone⟩
    · rw [hclasses, hnone, hfields₁, hfields₂, hfields₃, hfields₄]
      simp
    · intro cls hcls
      cases hnone.symm.trans hcls
    · intro cls hcls
      cases hnone.symm.trans hcls

def onlyError (ty : CharP) : Responses where
  runResult := ⟨none, none, none, none, ty, none, none⟩
  algorithmRun := ⟨none, ty, none⟩
  requestMetadata := ⟨none, none, none, none, none, none, none, none, none, none, none, none, none,
    none, none, none, none, none, ty, none⟩
  stringResult := ⟨none, ty, none⟩
  errorResponse := ⟨ty, none⟩
  boolResult := ⟨0, ty, none⟩

/-- All fields are set. -/
def filled (text name : String) : Responses :=
  let field : CharP := some text.toUTF8
  let ty : CharP := some name.toUTF8
  { runResult := ⟨field, field, field, field, ty, field, field⟩
    algorithmRun := ⟨field, ty, field⟩
    requestMetadata := ⟨field, field, field, field, field, field, field, field, field, field, field,
      field, field, field, field, field, field, field, ty, field⟩
    stringResult := ⟨field, ty, field⟩
    errorResponse := ⟨ty, field⟩
    boolResult := ⟨1, ty, field⟩ }

theorem no_error_lost_iff_conflictError :
    NoErrorLost (filled "run-1" "*models.ConflictError")
      (some "*models.ConflictError".toUTF8) := by
  refine (no_error_lost_iff _ _ (by simp [Responses.errorTypes, filled])).mpr ⟨?_, ?_⟩
  · rw [carriedError_toUTF8]
    rfl
  · simp only [Responses.decodedFields, filled, SdkRunResult.fields, SdkAlgorithmRun.fields,
      SdkRequestMetadata.fields, SdkStringResult.fields, List.all_append, List.all_cons,
      List.all_nil, decodes_toUTF8, Bool.and_self]

/-- A network error that the Go library reports for a completion. -/
theorem networkError_lost :
    ¬ NoErrorLost (onlyError (some "*models.NetworkError".toUTF8))
      (some "*models.NetworkError".toUTF8) := by
  intro h
  have hnone := h.completeReturns (completeRun_some _)
  rw [carriedError_toUTF8] at hnone
  cases hnone

end NexusSdk.Client
