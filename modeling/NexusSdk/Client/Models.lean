import NexusSdk.Python

/-! The structs that the Go library returns and their Python counterparts.  The scheduler's decoders
turn each field into text; the receiver's leave the error fields as they are. -/

namespace NexusSdk.Client

/-- A `c_char_p` field: `none` for the null pointer. -/
abbrev CharP := Option ByteArray

/-! ### Errors of the Go client -/

def sdkError : PyClass :=
  .extend "nexus_client_sdk.models.client_errors.go_http_errors.SdkError" [runtimeError]
def unauthorizedError : PyClass :=
  .extend "nexus_client_sdk.models.client_errors.go_http_errors.UnauthorizedError" [runtimeError]
def badRequestError : PyClass :=
  .extend "nexus_client_sdk.models.client_errors.go_http_errors.BadRequestError" [runtimeError]
def notFoundError : PyClass :=
  .extend "nexus_client_sdk.models.client_errors.go_http_errors.NotFoundError" [runtimeError]
def networkError : PyClass :=
  .extend "nexus_client_sdk.models.client_errors.go_http_errors.NetworkError" [runtimeError]

/-- The value of an attribute that is annotated `str | None`. -/
inductive PyText
  | none
  | str (s : String)
  | bytes (b : ByteArray)

def PyText.isNone : PyText → Bool
  | .none => true
  | .str _ | .bytes _ => false

theorem PyText.isNone_iff {v : PyText} : v.isNone = true ↔ v = .none := by
  cases v <;> simp [isNone]

def PyText.ofCharP : CharP → PyText
  | .none => .none
  | some b => .bytes b

def PyText.ofOption : Option String → PyText
  | .none => .none
  | some s => .str s

/-- What `repr` writes for a byte between quotes of the given kind. -/
def byteRepr (quote b : UInt8) : String :=
  if b = 9 then "\\t"
  else if b = 10 then "\\n"
  else if b = 13 then "\\r"
  else if b = quote || b = 92 then "\\" ++ (Char.ofUInt8 b).toString
  else if 32 ≤ b && b < 127 then (Char.ofUInt8 b).toString
  else
    "\\x" ++ (Nat.digitChar (b.toNat / 16)).toString ++ (Nat.digitChar (b.toNat % 16)).toString

/-- `repr` of bytes; double quotes stand around bytes that contain only single ones. -/
def bytesRepr (b : ByteArray) : String :=
  let quote : UInt8 := if 39 ∈ b.toList && 34 ∉ b.toList then 34 else 39
  let mark := (Char.ofUInt8 quote).toString
  "b" ++ mark ++ String.join (b.toList.map (byteRepr quote)) ++ mark

def PyText.text : PyText → String
  | .none => "None"
  | .str s => s
  | .bytes b => bytesRepr b

structure PySdkType where
  clientErrorType : PyText
  clientErrorMessage : PyText

/-- The error class for a type name of the Go library. -/
def errorClass : String → Option PyClass
  | "*models.SdkErr" => some sdkError
  | "*models.UnauthorizedError" => some unauthorizedError
  | "*models.BadRequestError" => some badRequestError
  | "*models.NotFoundError" => some notFoundError
  | "*models.NetworkError" => some networkError
  | _ => .none

theorem errorClass_mem {name : String} {cls : PyClass} (h : errorClass name = some cls) :
    cls ∈ [sdkError, unauthorizedError, badRequestError, notFoundError, networkError] := by
  unfold errorClass at h
  split at h <;> simp only [Option.some.injEq, reduceCtorEq] at h <;> subst h <;> decide

/-- Parse Go client error into a corresponding Python error; bytes equal none of the names. -/
def PySdkType.error (r : PySdkType) : Option PyExc :=
  match r.clientErrorType with
  | .str s => (errorClass s).map fun cls => .raised cls r.clientErrorMessage.text
  | .none | .bytes _ => .none

/-! ### Decoders of the scheduler -/

/-- `field.decode() if field else None`. -/
def decodeField : CharP → Except PyExc (Option String)
  | .none => .ok .none
  | some b => if b.isEmpty then .ok .none else (decodeUtf8 b).map some

structure SdkRunResult where
  algorithm : CharP
  requestId : CharP
  resultUri : CharP
  runErrorMessage : CharP
  clientErrorType : CharP
  clientErrorMessage : CharP
  status : CharP

structure RunResult extends PySdkType where
  algorithm : Option String
  requestId : Option String
  resultUri : Option String
  runErrorMessage : Option String
  status : Option String

/-- Checks if this object is empty (end of the response). -/
def RunResult.isEmpty (r : RunResult) : Bool :=
  r.algorithm.isNone && r.requestId.isNone && r.resultUri.isNone && r.runErrorMessage.isNone &&
    r.status.isNone && r.clientErrorType.isNone && r.clientErrorMessage.isNone

def RunResult.fromSdkResult : Option SdkRunResult → Except PyExc (Option RunResult)
  | .none => .ok .none
  | some result => do
    let algorithm ← decodeField result.algorithm
    let requestId ← decodeField result.requestId
    let resultUri ← decodeField result.resultUri
    let runErrorMessage ← decodeField result.runErrorMessage
    let clientErrorType ← decodeField result.clientErrorType
    let clientErrorMessage ← decodeField result.clientErrorMessage
    let status ← decodeField result.status
    let obj : RunResult :=
      { clientErrorType := .ofOption clientErrorType
        clientErrorMessage := .ofOption clientErrorMessage
        algorithm, requestId, resultUri, runErrorMessage, status }
    if obj.isEmpty then return .none
    return some obj

structure SdkAlgorithmRun where
  requestId : CharP
  clientErrorType : CharP
  clientErrorMessage : CharP

structure AlgorithmRun extends PySdkType where
  requestId : Option String

def AlgorithmRun.fromSdkRun : Option SdkAlgorithmRun → Except PyExc (Option AlgorithmRun)
  | .none => .ok .none
  | some run => do
    let requestId ← decodeField run.requestId
    let clientErrorType ← decodeField run.clientErrorType
    let clientErrorMessage ← decodeField run.clientErrorMessage
    return some
      { clientErrorType := .ofOption clientErrorType
        clientErrorMessage := .ofOption clientErrorMessage
        requestId }

structure SdkRequestMetadata where
  algorithm : CharP
  id : CharP
  algorithmFailureCause : CharP
  algorithmFailureDetails : CharP
  apiVersion : CharP
  appliedConfiguration : CharP
  configurationOverrides : CharP
  contentHash : CharP
  jobUid : CharP
  lastModified : CharP
  lifecycleStage : CharP
  parentJob : CharP
  payloadUri : CharP
  receivedAt : CharP
  receivedByHost : CharP
  resultUri : CharP
  sentAt : CharP
  tag : CharP
  clientErrorType : CharP
  clientErrorMessage : CharP

structure RequestMetadata extends PySdkType where
  algorithm : Option String
  id : Option String
  algorithmFailureCause : Option String
  algorithmFailureDetails : Option String
  apiVersion : PyText
  appliedConfiguration : Option String
  configurationOverrides : Option String
  contentHash : Option String
  jobUid : Option String
  lastModified : Option String
  lifecycleStage : Option String
  parentJob : Option String
  payloadUri : Option String
  receivedAt : Option String
  receivedByHost : Option String
  resultUri : Option String
  sentAt : Option String
  tag : Option String

/-- The API version is not decoded. -/
def RequestMetadata.fromSdkResult :
    Option SdkRequestMetadata → Except PyExc (Option RequestMetadata)
  | .none => .ok .none
  | some result => do
    let algorithm ← decodeField result.algorithm
    let id ← decodeField result.id
    let algorithmFailureCause ← decodeField result.algorithmFailureCause
    let algorithmFailureDetails ← decodeField result.algorithmFailureDetails
    let appliedConfiguration ← decodeField result.appliedConfiguration
    let configurationOverrides ← decodeField result.configurationOverrides
    let contentHash ← decodeField result.contentHash
    let jobUid ← decodeField result.jobUid
    let lastModified ← decodeField result.lastModified
    let lifecycleStage ← decodeField result.lifecycleStage
    let parentJob ← decodeField result.parentJob
    let payloadUri ← decodeField result.payloadUri
    let receivedAt ← decodeField result.receivedAt
    let receivedByHost ← decodeField result.receivedByHost
    let resultUri ← decodeField result.resultUri
    let sentAt ← decodeField result.sentAt
    let tag ← decodeField result.tag
    let clientErrorType ← decodeField result.clientErrorType
    let clientErrorMessage ← decodeField result.clientErrorMessage
    return some
      { clientErrorType := .ofOption clientErrorType
        clientErrorMessage := .ofOption clientErrorMessage
        apiVersion := .ofCharP result.apiVersion
        algorithm, id, algorithmFailureCause, algorithmFailureDetails, appliedConfiguration,
        configurationOverrides, contentHash, jobUid, lastModified, lifecycleStage, parentJob,
        payloadUri, receivedAt, receivedByHost, resultUri, sentAt, tag }

structure SdkStringResult where
  result : CharP
  clientErrorType : CharP
  clientErrorMessage : CharP

structure StringResult extends PySdkType where
  result : String

def StringResult.fromSdkResult : Option SdkStringResult → Except PyExc (Option StringResult)
  | .none => .ok .none
  | some result => do
    let text ← decodeField result.result
    let clientErrorType ← decodeField result.clientErrorType
    let clientErrorMessage ← decodeField result.clientErrorMessage
    return some
      { clientErrorType := .ofOption clientErrorType
        clientErrorMessage := .ofOption clientErrorMessage
        result := text.getD "" }

/-! ### Decoders of the receiver -/

structure SdkErrorResponse where
  clientErrorType : CharP
  clientErrorMessage : CharP

structure ErrorResponse extends PySdkType

def ErrorResponse.fromSdkResponse : Option SdkErrorResponse → Option ErrorResponse
  | .none => .none
  | some response => some
      { clientErrorType := .ofCharP response.clientErrorType
        clientErrorMessage := .ofCharP response.clientErrorMessage }

structure SdkBoolResult where
  result : Int32
  clientErrorType : CharP
  clientErrorMessage : CharP

structure BoolResult extends PySdkType where
  result : Option Bool

def BoolResult.fromSdkResult : Option SdkBoolResult → Option BoolResult
  | .none => .none
  | some sdkResult => some
      { result := if sdkResult.result = -1 then .none else some (sdkResult.result != 0)
        clientErrorType := .ofCharP sdkResult.clientErrorType
        clientErrorMessage := .ofCharP sdkResult.clientErrorMessage }

end NexusSdk.Client
