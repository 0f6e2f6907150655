import NexusSdk.Client.Scheduler
import NexusSdk.Client.ListQueries

/-! `get_request_metadata` of the async scheduler client, and what the answers of the Go library to
it say about a run. -/

namespace NexusSdk.Client

open Lib

/-- `get_request_metadata` of the sync client; an answer without a record is `None`. -/
def getRequestMetadataAnswer : Option SdkRequestMetadata → Except PyExc (Option RequestMetadata)
  | none => .ok none
  | some sdkMeta => getRequestMetadata sdkMeta

def metadataMessage (requestId algorithm : String) : String :=
  "Fatal error when getting metadata for request " ++ algorithm ++ "/" ++ requestId

/-- `get_request_metadata`; the Go library answers `answers n` to attempt number `n`. -/
def NexusSchedulerAsyncClient.getRequestMetadata (answers : Nat → Option SdkRequestMetadata)
    (requestId algorithm : String) : Traced Nat PyExc (Option RequestMetadata) :=
  NexusClientAsyncRetryPolicy.execute .default
    (fun n => .of (.ok (.coroutine (runBlocking ⟨[n], getRequestMetadataAnswer (answers n)⟩))))
    (metadataMessage requestId algorithm)

/-! ### What an answer says -/

/-- The error that the record carries, if its error type is one of the known ones. -/
def SdkRequestMetadata.carried (r : SdkRequestMetadata) : Option PyExc :=
  (carriedError r.clientErrorType).map fun cls =>
    .raised cls (PyText.ofOption (decoded r.clientErrorMessage)).text

theorem noStopIteration_carried {r : SdkRequestMetadata} {e : PyExc} (h : r.carried = some e) :
    e.isInstance stopIteration = false := by
  obtain ⟨cls, hcls, rfl⟩ := Option.map_eq_some_iff.mp h
  have hnone : ∀ cls ∈ ownErrors, cls.isSubclass stopIteration = false := by decide
  exact hnone cls (carriedError_mem_ownErrors hcls)

/-- What the scheduler says about a run. -/
inductive Said
  | record (receivedAt : Option String)
  | missing
  | notFound
  /-- an error other than that the run was not found -/
  | fails
  deriving DecidableEq

def said : Option SdkRequestMetadata → Said
  | none => .missing
  | some r =>
    if r.fields.all decodes then
      match r.carried with
      | none => .record (decoded r.receivedAt)
      | some e => if e.isInstance notFoundError then .notFound else .fails
    else .fails

def reportsNetworkError : Option SdkRequestMetadata → Bool
  | none => false
  | some r => r.fields.all decodes && r.carried.any (·.isInstance networkError)

/-- What the first of three answers says that does not report a network error. -/
def saidOf (answers : Nat → Option SdkRequestMetadata) : Said :=
  match (List.range 3).find? fun n => !reportsNetworkError (answers n) with
  | some n => said (answers n)
  | none => .fails

/-- The outcome of a query is the one that was said. -/
def Said.Describes : Said → Except PyExc (Option RequestMetadata) → Prop
  | .record receivedAt, x => ∃ m, x = .ok (some m) ∧ m.receivedAt = receivedAt
  | .missing, x => x = .ok none
  | .notFound, x => ∃ e, x = .error e ∧ e.isInstance notFoundError = true
  | .fails, x => ∃ e, x = .error e ∧ e.isInstance notFoundError = false

/-! ### The outcome of a query -/

/-- Reading a record: an exception of the decoder, the error that it carries, or its fields. -/
theorem getRequestMetadata_eq (r : SdkRequestMetadata) :
    ∃ m : RequestMetadata, m.receivedAt = decoded r.receivedAt ∧
      getRequestMetadata r =
        if r.fields.all decodes then
          match r.carried with
          | none => .ok (some m)
          | some e => .error e
        else .error invalidUtf8 := by
  obtain ⟨m, hreceivedAt, heq⟩ := getRequestMetadata_eq_raiseOrReturn r
  have herror : PySdkType.error ⟨.ofOption (decoded r.clientErrorType),
      .ofOption (decoded r.clientErrorMessage)⟩ = r.carried := error_ofOption_decoded_eq _ _
  refine ⟨m, hreceivedAt, ?_⟩
  unfold raiseOrReturn at heq
  cases hcarried : r.carried with
  | none =>
    rw [herror, hcarried] at heq
    exact heq
  | some e =>
    rw [herror, hcarried] at heq
    exact heq

/-- The answer is an error that is retried, or says what the outcome of the call is. -/
theorem describes_said (answer : Option SdkRequestMetadata) :
    (said answer).Describes (getRequestMetadataAnswer answer) ∧
      NexusClientRetryPolicy.default.retryable (getRequestMetadataAnswer answer) =
        reportsNetworkError answer := by
  cases answer with
  | none => exact ⟨rfl, rfl⟩
  | some r =>
    obtain ⟨m, hreceivedAt, heq⟩ := getRequestMetadata_eq r
    simp only [getRequestMetadataAnswer, said, reportsNetworkError,
      NexusClientRetryPolicy.retryable, heq]
    cases r.fields.all decodes with
    | false =>
      have hclass : invalidUtf8.isInstance networkError = false := by decide
      exact ⟨⟨invalidUtf8, rfl, by decide⟩, (retries_default invalidUtf8).trans hclass⟩
    | true =>
    cases r.carried with
    | none => exact ⟨⟨m, rfl, hreceivedAt⟩, rfl⟩
    | some e =>
      refine ⟨?_, retries_default e⟩
      show (if e.isInstance notFoundError then Said.notFound else .fails).Describes (.error e)
      cases hfound : e.isInstance notFoundError with
      | true => exact ⟨e, rfl, hfound⟩
      | false => exact ⟨e, rfl, hfound⟩

theorem isInstance_bare (e : PyExc) (c : PyClass) : e.bare.isInstance c = e.isInstance c := by
  induction e with
  | during e _ ih _ => exact ih
  | _ => rfl

/-- The contexts of an exception do not matter. -/
theorem Said.Describes.of_bare {s : Said} {x y : Except PyExc (Option RequestMetadata)}
    (h : x.mapError PyExc.bare = y.mapError PyExc.bare) (hy : s.Describes y) : s.Describes x := by
  cases y with
  | ok o =>
    cases x with
    | ok o' =>
      obtain rfl := Except.ok.inj h
      exact hy
    | error e => cases h
  | error e =>
    cases x with
    | ok o => cases h
    | error e' =>
      have hbare : e'.bare = e.bare := Except.error.inj h
      have hinstance : e'.isInstance notFoundError = e.isInstance notFoundError := by
        rw [← isInstance_bare, hbare, isInstance_bare]
      cases s with
      | record receivedAt =>
        obtain ⟨m, hm, -⟩ := hy
        cases hm
      | missing => cases hy
      | notFound =>
        obtain ⟨e'', heq, hfound⟩ := hy
        obtain rfl := Except.error.inj heq
        exact ⟨e', rfl, hinstance.trans hfound⟩
      | fails =>
        obtain ⟨e'', heq, hfound⟩ := hy
        obtain rfl := Except.error.inj heq
        exact ⟨e', rfl, hinstance.trans hfound⟩

theorem noStopIteration_getRequestMetadataAnswer (answer : Option SdkRequestMetadata) :
    NoStopIteration (getRequestMetadataAnswer answer) := by
  intro e he
  cases answer with
  | none => cases he
  | some r =>
    obtain ⟨m, -, heq⟩ := getRequestMetadata_eq r
    rw [getRequestMetadataAnswer, heq] at he
    split at he
    · cases hcarried : r.carried with
      | none =>
        rw [hcarried] at he
        cases he
      | some e' =>
        rw [hcarried] at he
        cases he
        exact noStopIteration_carried hcarried
    · cases he
      decide

/-- The outcome of a query is what its answers say. -/
theorem describes_saidOf (answers : Nat → Option SdkRequestMetadata)
    (requestId algorithm : String) :
    (saidOf answers).Describes
      (NexusSchedulerAsyncClient.getRequestMetadata answers requestId algorithm).outcome := by
  let outcome (n : Nat) := getRequestMetadataAnswer (answers n)
  have hexecute : NexusSchedulerAsyncClient.getRequestMetadata answers requestId algorithm =
      NexusClientRetryPolicy.default.execute (NexusClientRetryPolicy.numbered outcome)
        (metadataMessage requestId algorithm) := by
    have hraised (n : Nat) := noStopIteration_getRequestMetadataAnswer (answers n)
    rw [NexusSchedulerAsyncClient.getRequestMetadata, NexusClientAsyncRetryPolicy.execute_eq]
    refine (NexusClientRetryPolicy.coroutine_executeWith (fun n _ => ⟨?_, hraised n⟩)
      fun e he => ?_).1
    · exact blocking_eq_self (x := NexusClientRetryPolicy.numbered outcome n) (hraised n)
    · cases he
      rfl
  obtain ⟨-, houtcome⟩ := NexusClientRetryPolicy.default.executeWith_numbered PyExc.bare
    PyExc.bare_during outcome (metadataMessage requestId algorithm)
  rw [hexecute, NexusClientRetryPolicy.execute]
  refine Said.Describes.of_bare houtcome ?_
  have hlast : NexusClientRetryPolicy.default.lastCall outcome =
      (List.range 3).find? fun n => !reportsNetworkError (answers n) := by
    unfold NexusClientRetryPolicy.lastCall
    simp only [(describes_said _).2, outcome]
    rfl
  unfold NexusClientRetryPolicy.finalOutcome saidOf
  rw [hlast]
  cases (List.range 3).find? fun n => !reportsNetworkError (answers n) with
  | some n => exact (describes_said (answers n)).1
  | none =>
    have hclass : nexusClientRuntimeError.isSubclass notFoundError = false := by decide
    exact ⟨_, rfl, hclass⟩

end NexusSdk.Client
