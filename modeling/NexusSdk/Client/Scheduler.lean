import NexusSdk.Client.Results

/-! The operations of `NexusSchedulerClient` on the structs that the Go library returns, and whether
they fail closed.  The structs are passed by value, so that their `if not result` is never taken. -/

namespace NexusSdk.Client

/-! ### The operations -/

/-- `match converted.error()`, where any error is raised. -/
def raiseOrReturn {α : Type} (converted : PySdkType) (result : α) : Except PyExc α :=
  match converted.error with
  | none => .ok result
  | some e => .error e

def runResultOrRaise (result : SdkRunResult) : Except PyExc RunResult := do
  match ← RunResult.fromSdkResult (some result) with
  | none => .error (noneHasNo "error")
  | some converted => raiseOrReturn converted.toPySdkType converted

def getRunResult (result : SdkRunResult) : Except PyExc RunResult := runResultOrRaise result

def awaitRun (maybeResult : SdkRunResult) : Except PyExc RunResult := runResultOrRaise maybeResult

def createRun (maybeResult : SdkAlgorithmRun) : Except PyExc (Option String) := do
  match ← AlgorithmRun.fromSdkRun (some maybeResult) with
  | none => .error (noneHasNo "error")
  | some converted => raiseOrReturn converted.toPySdkType converted.requestId

def getRequestMetadata (sdkMeta : SdkRequestMetadata) : Except PyExc (Option RequestMetadata) := do
  match ← RequestMetadata.fromSdkResult (some sdkMeta) with
  | none => return none
  | some maybeMeta =>
    match maybeMeta.error with
    | none => return some maybeMeta
    | some err => if err.isObject notFoundError then return none else .error err

def cancelRun (sdkResult : SdkStringResult) : Except PyExc Unit := do
  match ← StringResult.fromSdkResult (some sdkResult) with
  | none => return ()
  | some maybeResult => raiseOrReturn maybeResult.toPySdkType ()

/-! ### Failing closed -/

/-- The exceptions by which the SDK reports errors of the Go library. -/
def ownErrors : List PyClass :=
  [sdkError, unauthorizedError, badRequestError, notFoundError, networkError]

/-- An operation succeeds only without an error type and with a result, and ends abnormally only
with an exception of the SDK. -/
structure FailsClosed {α : Type} (errorType : CharP) (isResult : α → Bool)
    (outcome : Except PyExc α) : Prop where
  successful : ∀ a, outcome = .ok a → errorType = none ∧ isResult a = true
  abnormal : ∀ e, outcome = .error e → e.cls ∈ ownErrors

/-- The same for an element of a results array. -/
structure ElementFailsClosed (r : SdkRunResult) : Prop where
  delivered : ∀ result, turn r = .yields result → r.clientErrorType = none
  abnormal : ∀ e, turn r = .raises e → e.cls ∈ ownErrors

/-- The error type is the name of a known error. -/
def known (errorType : CharP) : Bool := (carriedError errorType).isSome

section Lemmas

variable {α : Type} {errorType message : CharP} {isResult : α → Bool} {a : α} {e : PyExc}

theorem carriedError_mem_ownErrors {cls : PyClass} (h : carriedError errorType = some cls) :
    cls ∈ ownErrors := by
  obtain ⟨name, -, hname⟩ := Option.bind_eq_some_iff.mp h
  exact errorClass_mem hname

theorem not_failsClosed_of_error (h : e.cls ∉ ownErrors) :
    ¬ FailsClosed errorType isResult (.error e) :=
  fun hclosed => h (hclosed.abnormal e rfl)

theorem not_mem_invalidUtf8 : invalidUtf8.cls ∉ ownErrors := by decide

theorem not_mem_noneHasNo (name : String) : (noneHasNo name).cls ∉ ownErrors := by
  show attributeError ∉ ownErrors
  decide

/-- An unknown error type is none for the operation, which then succeeds. -/
theorem failsClosed_raiseOrReturn_iff :
    FailsClosed errorType isResult
        (raiseOrReturn ⟨.ofOption (decoded errorType), .ofOption (decoded message)⟩ a) ↔
      known errorType = true ∨ errorType = none ∧ isResult a = true := by
  unfold raiseOrReturn known
  rw [error_ofOption_decoded_eq]
  cases hcarried : carriedError errorType with
  | none =>
    simp only [Option.map_none, Option.isSome_none, Bool.false_eq_true, false_or]
    refine ⟨fun h => h.successful a rfl, fun h => ⟨fun b hb => ?_, fun e he => by cases he⟩⟩
    obtain rfl := Except.ok.inj hb
    exact h
  | some cls =>
    simp only [Option.map_some, Option.isSome_some, true_or, iff_true]
    refine ⟨fun b hb => (by cases hb), fun e he => ?_⟩
    obtain rfl := Except.error.inj he
    exact carriedError_mem_ownErrors hcarried

theorem failsClosed_ite_iff {c : Bool} {x : Except PyExc α} :
    FailsClosed errorType isResult (if c then x else .error invalidUtf8) ↔
      c = true ∧ FailsClosed errorType isResult x := by
  cases c with
  | true => simp
  | false => simpa using not_failsClosed_of_error not_mem_invalidUtf8

end Lemmas

/-! ### Each operation -/

theorem runResultOrRaise_eq (r : SdkRunResult) :
    runResultOrRaise r =
      if r.fields.all decodes then
        if r.blank then .error (noneHasNo "error")
        else raiseOrReturn r.decodedResult.toPySdkType r.decodedResult
      else .error invalidUtf8 := by
  unfold runResultOrRaise
  rw [fromSdkResult_eq]
  cases r.fields.all decodes with
  | false => rfl
  | true => cases r.blank <;> rfl

theorem failsClosed_runResultOrRaise_iff (r : SdkRunResult) :
    FailsClosed r.clientErrorType (fun _ => true) (runResultOrRaise r) ↔
      r.fields.all decodes = true ∧ r.blank = false ∧
        (known r.clientErrorType = true ∨ r.clientErrorType = none) := by
  rw [runResultOrRaise_eq, failsClosed_ite_iff]
  refine and_congr_right fun _ => ?_
  cases r.blank with
  | true => simpa using not_failsClosed_of_error (not_mem_noneHasNo "error")
  | false =>
    refine failsClosed_raiseOrReturn_iff.trans ?_
    simp

theorem failsClosed_createRun_iff (r : SdkAlgorithmRun) :
    FailsClosed r.clientErrorType Option.isSome (createRun r) ↔
      r.fields.all decodes = true ∧ (known r.clientErrorType = true ∨
        r.clientErrorType = none ∧ (decoded r.requestId).isSome = true) := by
  have heq : createRun r =
      if r.fields.all decodes then
        raiseOrReturn ⟨.ofOption (decoded r.clientErrorType),
          .ofOption (decoded r.clientErrorMessage)⟩ (decoded r.requestId)
      else .error invalidUtf8 := by
    simp only [createRun, AlgorithmRun.fromSdkRun, bind_decodeField, ← ite_and,
      SdkAlgorithmRun.fields, List.all_cons, List.all_nil, Bool.and_true, Bool.and_eq_true]
    split <;> rfl
  rw [heq, failsClosed_ite_iff, failsClosed_raiseOrReturn_iff]

theorem failsClosed_cancelRun_iff (r : SdkStringResult) :
    FailsClosed r.clientErrorType (fun _ => true) (cancelRun r) ↔
      r.fields.all decodes = true ∧
        (known r.clientErrorType = true ∨ r.clientErrorType = none) := by
  have heq : cancelRun r =
      if r.fields.all decodes then
        raiseOrReturn ⟨.ofOption (decoded r.clientErrorType),
          .ofOption (decoded r.clientErrorMessage)⟩ ()
      else .error invalidUtf8 := by
    simp only [cancelRun, StringResult.fromSdkResult, bind_decodeField, ← ite_and,
      SdkStringResult.fields, List.all_cons, List.all_nil, Bool.and_true, Bool.and_eq_true]
    split <;> rfl
  rw [heq, failsClosed_ite_iff, failsClosed_raiseOrReturn_iff, and_iff_left rfl]

/-- Reading a record: an exception of the decoder, or the error or the fields that it carries. -/
theorem getRequestMetadata_eq_raiseOrReturn (r : SdkRequestMetadata) :
    ∃ m : RequestMetadata, m.receivedAt = decoded r.receivedAt ∧ getRequestMetadata r =
      if r.fields.all decodes then
        raiseOrReturn ⟨.ofOption (decoded r.clientErrorType),
          .ofOption (decoded r.clientErrorMessage)⟩ (some m)
      else .error invalidUtf8 := by
  obtain ⟨m, hreceivedAt, htype, hread⟩ : ∃ m : RequestMetadata,
      m.receivedAt = decoded r.receivedAt ∧
      m.toPySdkType = ⟨.ofOption (decoded r.clientErrorType),
        .ofOption (decoded r.clientErrorMessage)⟩ ∧
      RequestMetadata.fromSdkResult (some r) =
        if r.fields.all decodes then .ok (some m) else .error invalidUtf8 := by
    simp only [RequestMetadata.fromSdkResult, bind_decodeField, ← ite_and,
      SdkRequestMetadata.fields, List.all_cons, List.all_nil, Bool.and_true, Bool.and_eq_true]
    exact ⟨_, rfl, rfl, rfl⟩
  refine ⟨m, hreceivedAt, ?_⟩
  unfold getRequestMetadata raiseOrReturn
  rw [hread, ← htype]
  cases r.fields.all decodes with
  | false => rfl
  | true =>
    simp only [if_true, bind, Except.bind]
    cases m.error <;> rfl

theorem failsClosed_getRequestMetadata_iff (r : SdkRequestMetadata) :
    FailsClosed r.clientErrorType (fun _ => true) (getRequestMetadata r) ↔
      r.fields.all decodes = true ∧
        (known r.clientErrorType = true ∨ r.clientErrorType = none) := by
  obtain ⟨m, -, heq⟩ := getRequestMetadata_eq_raiseOrReturn r
  rw [heq, failsClosed_ite_iff, failsClosed_raiseOrReturn_iff, and_iff_left rfl]

theorem elementFailsClosed_iff (r : SdkRunResult) :
    ElementFailsClosed r ↔
      r.fields.all decodes = true ∧
        (r.blank = true ∨ known r.clientErrorType = true ∨ r.clientErrorType = none) := by
  have hturn := turn_eq r
  cases hdecodes : r.fields.all decodes with
  | false =>
    rw [hdecodes] at hturn
    refine iff_of_false (fun h => ?_) (by simp)
    exact not_mem_invalidUtf8 (h.abnormal invalidUtf8 hturn)
  | true =>
  cases hblank : r.blank with
  | true =>
    rw [hdecodes, hblank] at hturn
    refine iff_of_true ⟨fun result h => ?_, fun e h => ?_⟩ (by simp)
    · cases hturn.symm.trans h
    · cases hturn.symm.trans h
  | false =>
  simp only [hdecodes, hblank, SdkRunResult.carried, known, true_and, Bool.false_eq_true, false_or]
    at hturn ⊢
  cases hcarried : carriedError r.clientErrorType with
  | none =>
    rw [hcarried] at hturn
    simp only [Option.isSome_none, Bool.false_eq_true, false_or]
    refine ⟨fun h => h.delivered r.decodedResult hturn, fun h => ⟨fun _ _ => h, fun e he => ?_⟩⟩
    cases hturn.symm.trans he
  | some cls =>
    rw [hcarried] at hturn
    refine iff_of_true ⟨fun result h => ?_, fun e h => ?_⟩ (by simp)
    · cases hturn.symm.trans h
    · obtain rfl := Turn.raises.inj (hturn.symm.trans h)
      exact carriedError_mem_ownErrors hcarried

/-! ### All operations together -/

/-- What the Go library returns to each of the operations. -/
structure SchedulerAnswers where
  runResult : SdkRunResult
  awaitedRun : SdkRunResult
  algorithmRun : SdkAlgorithmRun
  stringResult : SdkStringResult
  requestMetadata : SdkRequestMetadata
  /-- the elements of a results array -/
  elements : List SdkRunResult

namespace SchedulerAnswers

structure FailClosed (a : SchedulerAnswers) : Prop where
  getRunResult : FailsClosed a.runResult.clientErrorType (fun _ => true) (getRunResult a.runResult)
  awaitRun : FailsClosed a.awaitedRun.clientErrorType (fun _ => true) (awaitRun a.awaitedRun)
  /-- a missing run id is no result -/
  createRun :
    FailsClosed a.algorithmRun.clientErrorType Option.isSome (createRun a.algorithmRun)
  cancelRun : FailsClosed a.stringResult.clientErrorType (fun _ => true) (cancelRun a.stringResult)
  getRequestMetadata : FailsClosed a.requestMetadata.clientErrorType (fun _ => true)
    (getRequestMetadata a.requestMetadata)
  iterateResults : ∀ r ∈ a.elements, ElementFailsClosed r

/-- Every decoded field is valid, and every error type is null or known; without an error there is
something in a run result, and the id of a created run. -/
structure Coherent (a : SchedulerAnswers) : Prop where
  decodes : ∀ fields ∈ a.runResult.fields :: a.awaitedRun.fields :: a.algorithmRun.fields ::
      a.stringResult.fields :: a.requestMetadata.fields :: a.elements.map SdkRunResult.fields,
    fields.all decodes = true
  runResult : a.runResult.blank = false ∧
    (known a.runResult.clientErrorType = true ∨ a.runResult.clientErrorType = none)
  awaitedRun : a.awaitedRun.blank = false ∧
    (known a.awaitedRun.clientErrorType = true ∨ a.awaitedRun.clientErrorType = none)
  algorithmRun : known a.algorithmRun.clientErrorType = true ∨
    a.algorithmRun.clientErrorType = none ∧ (decoded a.algorithmRun.requestId).isSome = true
  stringResult : known a.stringResult.clientErrorType = true ∨ a.stringResult.clientErrorType = none
  requestMetadata :
    known a.requestMetadata.clientErrorType = true ∨ a.requestMetadata.clientErrorType = none
  elements : ∀ r ∈ a.elements,
    r.blank = true ∨ known r.clientErrorType = true ∨ r.clientErrorType = none

end SchedulerAnswers

/-- The operations fail closed exactly if what the Go library returns is coherent. -/
theorem fails_closed_iff (a : SchedulerAnswers) : a.FailClosed ↔ a.Coherent := by
  constructor
  · intro h
    obtain ⟨hrunFields, hrunBlank, hrun⟩ := (failsClosed_runResultOrRaise_iff _).mp h.getRunResult
    obtain ⟨hawaitFields, hawaitBlank, hawait⟩ := (failsClosed_runResultOrRaise_iff _).mp h.awaitRun
    obtain ⟨hcreateFields, hcreate⟩ := (failsClosed_createRun_iff _).mp h.createRun
    obtain ⟨hcancelFields, hcancel⟩ := (failsClosed_cancelRun_iff _).mp h.cancelRun
    obtain ⟨hmetaFields, hmeta⟩ := (failsClosed_getRequestMetadata_iff _).mp h.getRequestMetadata
    have helement (r : SdkRunResult) (hr : r ∈ a.elements) :=
      (elementFailsClosed_iff r).mp (h.iterateResults r hr)
    refine ⟨?_, ⟨hrunBlank, hrun⟩, ⟨hawaitBlank, hawait⟩, hcreate, hcancel, hmeta,
      fun r hr => (helement r hr).2⟩
    simp only [List.forall_mem_cons, List.forall_mem_map]
    exact ⟨hrunFields, hawaitFields, hcreateFields, hcancelFields, hmetaFields,
      fun r hr => (helement r hr).1⟩
  · rintro ⟨hfields, hrun, hawait, hcreate, hcancel, hmeta, helements⟩
    simp only [List.forall_mem_cons, List.forall_mem_map] at hfields
    obtain ⟨hrunFields, hawaitFields, hcreateFields, hcancelFields, hmetaFields, hall⟩ := hfields
    exact ⟨(failsClosed_runResultOrRaise_iff _).mpr ⟨hrunFields, hrun⟩,
      (failsClosed_runResultOrRaise_iff _).mpr ⟨hawaitFields, hawait⟩,
      (failsClosed_createRun_iff _).mpr ⟨hcreateFields, hcreate⟩,
      (failsClosed_cancelRun_iff _).mpr ⟨hcancelFields, hcancel⟩,
      (failsClosed_getRequestMetadata_iff _).mpr ⟨hmetaFields, hmeta⟩,
      fun r hr => (elementFailsClosed_iff r).mpr ⟨hall r hr, helements r hr⟩⟩

/-- Nothing but nulls, apart from the error type of the first struct. -/
def SchedulerAnswers.ofErrorType (name : String) : SchedulerAnswers where
  runResult := .ofErrorType name
  awaitedRun := .null
  algorithmRun := ⟨none, none, none⟩
  stringResult := ⟨none, none, none⟩
  requestMetadata := ⟨none, none, none, none, none, none, none, none, none, none, none, none, none,
    none, none, none, none, none, none, none⟩
  elements := [.ofErrorType name]

/-- An element with nothing but an unknown error type is decoded and returned. -/
theorem getRunResult_ofErrorType {name : String} (hempty : name.toUTF8.isEmpty = false)
    (h : errorClass name = none) :
    getRunResult (.ofErrorType name) = .ok (SdkRunResult.ofErrorType name).decodedResult := by
  have herror : (SdkRunResult.ofErrorType name).decodedResult.error = none := by
    rw [error_decodedResult, carried_ofErrorType, h]
    rfl
  rw [getRunResult, runResultOrRaise_eq, decodes_ofErrorType, blank_ofErrorType hempty]
  simp only [if_true, Bool.false_eq_true, if_false, raiseOrReturn, herror]

/-- An unknown error is a result, a struct of nulls ends in an `AttributeError`, and a created run
has no id. -/
theorem unknown_error_not_closed :
    let a := SchedulerAnswers.ofErrorType "*models.ConflictError"
    (∃ result, getRunResult a.runResult = .ok result) ∧
      awaitRun a.awaitedRun = .error (noneHasNo "error") ∧ createRun a.algorithmRun = .ok none ∧
      ¬ a.FailClosed := by
  intro a
  refine ⟨⟨_, getRunResult_ofErrorType (by decide) (by decide)⟩, rfl, rfl, fun h => ?_⟩
  exact absurd (h.createRun.successful none rfl).2 (by decide)

end NexusSdk.Client
