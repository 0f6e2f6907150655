import NexusSdk.Client.RetryPolicy
import NexusSdk.Lib.Run

/-! `complete_run` of the async receiver client and of the sync helpers.  The submission of a result
and the wait for its commit are retried one after the other, with the callback between them. -/

namespace NexusSdk.Client

open Lib

/-- The calls of the sync receiver client and of the callback, with their outcomes. -/
inductive ReceiverCall
  | completeRun (outcome : Except PyExc Unit)
  | onCompleteCallback
  | checkRun (outcome : Except PyExc (Option Bool))

structure SyncReceiver where
  completeRun : Nat → Except PyExc Unit
  checkRun : Nat → Except PyExc (Option Bool)

/-- The submission of the result, in attempt number `n`. -/
def SyncReceiver.submit (receiver : SyncReceiver) (n : Nat) :
    Traced ReceiverCall PyExc (Option Unit) :=
  ⟨[.completeRun (receiver.completeRun n)], (receiver.completeRun n).map fun _ => none⟩

/-- Checks if a run result has been committed. -/
def checkRunCommitted (receiver : SyncReceiver) (n : Nat) :
    Traced ReceiverCall PyExc (Option Unit) := do
  let runAcked ← ⟨[.checkRun (receiver.checkRun n)], receiver.checkRun n⟩
  if runAcked = none ∨ runAcked = some false then
    .raise (.raised nexusReceiverResultNotCommittedError "")
  else pure none

def runCallback (onCompleteCallback : Option (Except PyExc Unit)) :
    Traced ReceiverCall PyExc Unit :=
  match onCompleteCallback with
  | some outcome => ⟨[.onCompleteCallback], outcome⟩
  | none => pure ()

def submissionMessage (algorithm requestId : String) : String :=
  "Fatal error when submitting result " ++ algorithm ++ "/" ++ requestId

def acknowledgementMessage (algorithm requestId : String) : String :=
  "Result for the run " ++ algorithm ++ "/" ++ requestId ++
    " was not processed by the receiver within the expected time frame"

/-- Retries the check of the async client. -/
def ackAwaitPolicy : NexusClientRetryPolicy :=
  ((NexusClientRetryPolicy.default.withErrorTypes [nexusReceiverResultNotCommittedError]).withRetries
    10).withRetryExhaustErrorType (some nexusClientRuntimeError)

def NexusReceiverAsyncClient.completeRun (syncClient : SyncReceiver) (algorithm requestId : String)
    (onCompleteCallback : Option (Except PyExc Unit)) :
    Traced ReceiverCall PyExc (Option Unit) :=
  coroutine do
    let _ ← NexusClientAsyncRetryPolicy.execute .default
      (fun n => .of (.ok (.coroutine (runBlocking (syncClient.submit n)))))
      (submissionMessage algorithm requestId)
    runCallback onCompleteCallback
    NexusClientAsyncRetryPolicy.execute ackAwaitPolicy
      (fun n => .of (.ok (.coroutine (runBlocking (checkRunCommitted syncClient n)))))
      (acknowledgementMessage algorithm requestId)

/-- The error types that the helper retries besides network errors; no list is as the empty one. -/
def retriedErrorTypes (errorTypes : Option (List PyClass)) : List PyClass :=
  match errorTypes with
  | none | some [] => [nexusReceiverResultNotCommittedError]
  | some (cls :: rest) => cls :: rest

/-- Completes a run and ensures result is accounted for. -/
def SyncHelpers.completeRun (receiver : SyncReceiver) (algorithm requestId : String)
    (onCompleteCallback : Option (Except PyExc Unit)) (retryCount : Int)
    (errorTypes : Option (List PyClass)) (exhaustError : PyClass) :
    Traced ReceiverCall PyExc (Option Unit) := do
  let policy := ((NexusClientRetryPolicy.default.withErrorTypes (retriedErrorTypes errorTypes))
    |>.withRetries retryCount).withRetryExhaustErrorType (some exhaustError)
  let _ ← NexusClientSyncRetryPolicy.execute policy receiver.submit
    (submissionMessage algorithm requestId)
  runCallback onCompleteCallback
  NexusClientSyncRetryPolicy.execute policy (checkRunCommitted receiver)
    (acknowledgementMessage algorithm requestId)

/-! ### Acknowledged completion -/

/-- The callback is called once, after a successful submission and before any check. -/
def CallbackInOrder (before : List ReceiverCall) : ReceiverCall → Prop
  | .onCompleteCallback =>
    .completeRun (.ok ()) ∈ before ∧ (∀ outcome, .checkRun outcome ∉ before) ∧
      .onCompleteCallback ∉ before
  | _ => True

/-- A normal return means that a submission succeeded and that a later check returned `True`. -/
structure Acknowledged (x : Traced ReceiverCall PyExc (Option Unit)) : Prop where
  committed : ∀ a, x.outcome = .ok a → ∃ before after,
    x.events = before ++ .completeRun (.ok ()) :: after ∧ .checkRun (.ok (some true)) ∈ after
  callback : Justified CallbackInOrder x.events

theorem submit_ok {receiver : SyncReceiver} {n : Nat} {a : Option Unit}
    (h : (receiver.submit n).outcome = .ok a) :
    .completeRun (.ok ()) ∈ (receiver.submit n).events := by
  unfold SyncReceiver.submit at h ⊢
  cases hcomplete : receiver.completeRun n with
  | ok _ => exact List.mem_singleton_self _
  | error e =>
    rw [hcomplete] at h
    cases h

theorem mem_events_checkRunCommitted {receiver : SyncReceiver} {n : Nat} {e : ReceiverCall}
    (he : e ∈ (checkRunCommitted receiver n).events) : e = .checkRun (receiver.checkRun n) := by
  rw [checkRunCommitted, Traced.mem_events_bind] at he
  rcases he with he | ⟨acked, -, he⟩
  · exact List.mem_singleton.mp he
  · split at he <;> cases he

theorem checkRunCommitted_ok {receiver : SyncReceiver} {n : Nat} {a : Option Unit}
    (h : (checkRunCommitted receiver n).outcome = .ok a) :
    .checkRun (.ok (some true)) ∈ (checkRunCommitted receiver n).events := by
  have htrue : receiver.checkRun n = .ok (some true) := by
    rw [checkRunCommitted, Traced.outcome_bind] at h
    cases hcheck : receiver.checkRun n with
    | error e => simp [hcheck, Except.bind] at h
    | ok acked =>
      rcases acked with _ | _ | _
      · simp [hcheck, Except.bind, Traced.raise] at h
      · simp [hcheck, Except.bind, Traced.raise] at h
      · rfl
  rw [checkRunCommitted, Traced.mem_events_bind, htrue]
  exact .inl (List.mem_singleton_self _)

section Policies

variable (receiver : SyncReceiver) {p : NexusClientRetryPolicy} {during : PyExc → PyExc → PyExc}
  (message : String) {x : Nat → Traced ReceiverCall PyExc (Option Unit)}

/-- The attempts differ from those of the method at most in their exceptions. -/
def Attempts (method x : Nat → Traced ReceiverCall PyExc (Option Unit)) : Prop :=
  ∀ n, (x n).events = (method n).events ∧
    ∀ a, (x n).outcome = .ok a → (method n).outcome = .ok a

theorem attempts_self (method : Nat → Traced ReceiverCall PyExc (Option Unit)) :
    Attempts method method := fun _ => ⟨rfl, fun _ => id⟩

theorem attempts_blocking (method : Nat → Traced ReceiverCall PyExc (Option Unit)) :
    Attempts method fun n => coroutine (runBlocking (method n)) :=
  fun _ => ⟨rfl, fun _ => outcome_blocking_eq_ok.mp⟩

variable {receiver}

theorem execute_submit_ok (hx : Attempts receiver.submit x)
    (hp : p.retryExhaustErrorType.isSome = true) {a : Option Unit}
    (h : (p.executeWith during x message).outcome = .ok a) :
    .completeRun (.ok ()) ∈ (p.executeWith during x message).events := by
  obtain ⟨k, hcount, hk⟩ := NexusClientRetryPolicy.last_of_execute hp h
  rw [NexusClientRetryPolicy.events_executeWith, hcount]
  obtain ⟨hevents, hok⟩ := hx k
  exact List.mem_flatMap.mpr ⟨k, by simp, hevents ▸ submit_ok (hok a hk)⟩

theorem mem_events_execute_submit (hx : Attempts receiver.submit x) {e : ReceiverCall}
    (he : e ∈ (p.executeWith during x message).events) : ∃ outcome, e = .completeRun outcome := by
  obtain ⟨n, hn⟩ := NexusClientRetryPolicy.mem_events_execute he
  rw [(hx n).1] at hn
  exact ⟨_, List.mem_singleton.mp hn⟩

theorem execute_checkRunCommitted_ok (hx : Attempts (checkRunCommitted receiver) x)
    (hp : p.retryExhaustErrorType.isSome = true) {a : Option Unit}
    (h : (p.executeWith during x message).outcome = .ok a) :
    .checkRun (.ok (some true)) ∈ (p.executeWith during x message).events := by
  obtain ⟨k, hcount, hk⟩ := NexusClientRetryPolicy.last_of_execute hp h
  rw [NexusClientRetryPolicy.events_executeWith, hcount]
  obtain ⟨hevents, hok⟩ := hx k
  exact List.mem_flatMap.mpr ⟨k, by simp, hevents ▸ checkRunCommitted_ok (hok a hk)⟩

theorem mem_events_execute_checkRunCommitted (hx : Attempts (checkRunCommitted receiver) x)
    {e : ReceiverCall} (he : e ∈ (p.executeWith during x message).events) :
    ∃ outcome, e = .checkRun outcome := by
  obtain ⟨n, hn⟩ := NexusClientRetryPolicy.mem_events_execute he
  rw [(hx n).1] at hn
  exact ⟨_, mem_events_checkRunCommitted hn⟩

end Policies

theorem justified_submissions {submissions : List ReceiverCall}
    (hsubmissions : ∀ e ∈ submissions, ∃ outcome, e = .completeRun outcome) :
    Justified CallbackInOrder submissions := by
  rw [← List.nil_append submissions]
  refine (Justified.nil _).append fun before e he => ?_
  obtain ⟨outcome, rfl⟩ := hsubmissions e he
  trivial

/-- The history of submissions, the callback if there is one, and checks. -/
theorem justified_callback {submissions callbacks checks : List ReceiverCall}
    (hsubmissions : ∀ e ∈ submissions, ∃ outcome, e = .completeRun outcome)
    (hsubmitted : .completeRun (.ok ()) ∈ submissions)
    (hcallbacks : callbacks = [] ∨ callbacks = [.onCompleteCallback])
    (hchecks : ∀ e ∈ checks, ∃ outcome, e = .checkRun outcome) :
    Justified CallbackInOrder (submissions ++ (callbacks ++ checks)) := by
  have hsubmitting := justified_submissions hsubmissions
  have hcheck : ∀ before, ∀ e ∈ checks, CallbackInOrder before e := by
    intro before e he
    obtain ⟨outcome, rfl⟩ := hchecks e he
    trivial
  rw [← List.append_assoc]
  rcases hcallbacks with rfl | rfl
  · rw [List.append_nil]
    exact hsubmitting.append hcheck
  · have hcallback : CallbackInOrder submissions .onCompleteCallback := by
      refine ⟨hsubmitted, fun outcome h => ?_, fun h => ?_⟩
      · obtain ⟨_, h⟩ := hsubmissions _ h
        cases h
      · obtain ⟨_, h⟩ := hsubmissions _ h
        cases h
    exact (hsubmitting.snoc hcallback).append hcheck

/-- What follows a submission: the callback if there is one, and checks unless it fails. -/
theorem callback_then_checks (callback : Option (Except PyExc Unit))
    (acknowledgement : Traced ReceiverCall PyExc (Option Unit)) :
    ∃ callbacks checks, (runCallback callback >>= fun _ => acknowledgement).events =
        callbacks ++ checks ∧
      (callbacks = [] ∨ callbacks = [.onCompleteCallback]) ∧
      (checks = [] ∧ (∃ e, (runCallback callback >>= fun _ => acknowledgement).outcome = .error e) ∨
        checks = acknowledgement.events ∧
          (runCallback callback >>= fun _ => acknowledgement).outcome = acknowledgement.outcome) := by
  cases callback with
  | none => exact ⟨[], acknowledgement.events, rfl, .inl rfl, .inr ⟨rfl, rfl⟩⟩
  | some outcome =>
    cases outcome with
    | ok _ => exact ⟨[.onCompleteCallback], _, rfl, .inr rfl, .inr ⟨rfl, rfl⟩⟩
    | error e => exact ⟨[.onCompleteCallback], [], rfl, .inr rfl, .inl ⟨rfl, e, rfl⟩⟩

/-- Submissions and checks with the callback between them. -/
theorem acknowledged_of_parts {submission acknowledgement : Traced ReceiverCall PyExc (Option Unit)}
    (hsubmissions : ∀ e ∈ submission.events, ∃ outcome, e = .completeRun outcome)
    (hsubmitted : ∀ a, submission.outcome = .ok a → .completeRun (.ok ()) ∈ submission.events)
    (hchecks : ∀ e ∈ acknowledgement.events, ∃ outcome, e = .checkRun outcome)
    (hchecked : ∀ a, acknowledgement.outcome = .ok a →
      .checkRun (.ok (some true)) ∈ acknowledgement.events)
    (callback : Option (Except PyExc Unit)) :
    Acknowledged (submission >>= fun _ => runCallback callback >>= fun _ => acknowledgement) := by
  obtain ⟨submissions, submitted⟩ := submission
  cases submitted with
  | error e =>
    -- neither the callback nor a check is called
    rw [Traced.mk_error_bind]
    exact ⟨fun a h => (by cases h), justified_submissions hsubmissions⟩
  | ok a =>
    rw [Traced.mk_ok_bind]
    obtain ⟨callbacks, checks, hevents, hcallbacks, hrest⟩ :=
      callback_then_checks callback acknowledgement
    rw [hevents]
    have hsubmitted : .completeRun (.ok ()) ∈ submissions := hsubmitted a rfl
    refine ⟨fun b hb => ?_, justified_callback hsubmissions hsubmitted hcallbacks fun e he => ?_⟩
    · obtain ⟨before, after, rfl⟩ := List.append_of_mem hsubmitted
      have htrue : .checkRun (.ok (some true)) ∈ checks := by
        rcases hrest with ⟨-, e, he⟩ | ⟨rfl, houtcome⟩
        · rw [he] at hb
          cases hb
        · exact hchecked b (houtcome ▸ hb)
      exact ⟨before, after ++ (callbacks ++ checks), by simp, by simp [htrue]⟩
    · rcases hrest with ⟨rfl, -⟩ | ⟨rfl, -⟩
      · cases he
      · exact hchecks e he

/-- That a completion is acknowledged does not depend on what it raises. -/
theorem Acknowledged.mapError {x : Traced ReceiverCall PyExc (Option Unit)} (h : Acknowledged x)
    (f : PyExc → PyExc) : Acknowledged (x.mapError f) :=
  ⟨fun a ha => h.committed a (Traced.mapError_eq_ok_iff.mp ha), h.callback⟩

end NexusSdk.Client
