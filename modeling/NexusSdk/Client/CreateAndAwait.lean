import NexusSdk.Client.Models
import NexusSdk.Client.RetryPolicy
import NexusSdk.Lib.Run

/-! `create_and_await` of the async scheduler client.  The creation of a run and the wait for its
result are retried as one unit. -/

namespace NexusSdk.Client

open Lib

/-! ### `create_and_await` -/

/-- The calls of the sync client, with their outcomes. -/
inductive ClientCall
  | createRun (outcome : Except PyExc (Option String))
  | postCreateCallback (runId : Option String)
  | awaitRun (runId : Option String) (outcome : Except PyExc RunResult)

structure SyncClient where
  createRun : Nat → Except PyExc (Option String)
  postCreateCallback : Option (Nat → Except PyExc Unit)
  awaitRun : Nat → Except PyExc RunResult

/-- The callback is called if there is one. -/
def SyncClient.runCallback (client : SyncClient) (runId : Option String) (n : Nat) :
    Traced ClientCall PyExc Unit :=
  match client.postCreateCallback with
  | some callback => ⟨[.postCreateCallback runId], callback n⟩
  | none => pure ()

/-- `_create_and_await`, in attempt number `n`. -/
def attempt (client : SyncClient) (n : Nat) : Traced ClientCall PyExc (Option RunResult) := do
  let runId ← ⟨[.createRun (client.createRun n)], client.createRun n⟩
  client.runCallback runId n
  let result ← ⟨[.awaitRun runId (client.awaitRun n)], client.awaitRun n⟩
  if result.status = some "SCHEDULING_FAILED" then .raise (.raised nexusSchedulingError "")
  else pure (some result)

/-- The policy that the fork of the builder builds. -/
def createAndAwaitPolicy (propagateError : Bool) : NexusClientRetryPolicy :=
  let policy := NexusClientRetryPolicy.default
  { policy with
    errorTypes := policy.errorTypes ++ [nexusSchedulingError]
    retryExhaustErrorType := if propagateError then policy.retryExhaustErrorType else none }

def createAndAwait (client : SyncClient) (propagateError : Bool) :
    Traced ClientCall PyExc (Option RunResult) :=
  NexusClientAsyncRetryPolicy.execute (createAndAwaitPolicy propagateError)
    (fun n => .of (.ok (.coroutine (runBlocking (attempt client n)))))
    "Fatal error when creating/awaiting a run"

/-- An attempt, awaited. -/
def awaitedAttempt (client : SyncClient) (n : Nat) : Traced ClientCall PyExc (Option RunResult) :=
  coroutine (runBlocking (attempt client n))

theorem createAndAwait_eq (client : SyncClient) (propagateError : Bool) :
    createAndAwait client propagateError = coroutine
      ((createAndAwaitPolicy propagateError).executeWith awaitedDuring (awaitedAttempt client)
        "Fatal error when creating/awaiting a run") :=
  NexusClientAsyncRetryPolicy.execute_eq _ _ _

/-! ### Duplicate runs -/

/-- A run may be created after the calls `before`: no earlier attempt got a run id, or the run of the
previous attempt, whose calls are the last ones, was observed with failed scheduling. -/
def MayCreate (before : List ClientCall) : Prop :=
  (∀ id, .createRun (.ok (some id)) ∉ before) ∨
    ∃ id result, before.getLast? = some (.awaitRun (some id) (.ok result)) ∧
      result.status = some "SCHEDULING_FAILED"

def NotDuplicate (before : List ClientCall) : ClientCall → Prop
  | .createRun _ => MayCreate before
  | _ => True

namespace SyncClient

variable (client : SyncClient) (n : Nat)

def runId : Option String := (client.createRun n).toOption.join

def callback : Except PyExc Unit := client.postCreateCallback.elim (.ok ()) fun f => f n

def failsAfterCreation : Bool := !((client.callback n).isOk && (client.awaitRun n).isOk)

/-- An exception of the sync client or the callback that is retried; a `StopIteration` never gets to
the policy. -/
def retriedError (e : PyExc) : Bool :=
  !e.isInstance stopIteration && (e.isInstance networkError || e.isInstance nexusSchedulingError)

/-- Attempt number `n` fails in a way that is retried. -/
def retried : Bool :=
  match client.createRun n, client.callback n, client.awaitRun n with
  | .error e, _, _ | .ok _, .error e, _ | .ok _, .ok _, .error e => retriedError e
  | .ok _, .ok _, .ok result => result.status = some "SCHEDULING_FAILED"

/-- In no attempt that is retried within the bound, the callback or `await_run` fails although a run
was created, or no run is created although an earlier attempt created one. -/
def KeepsRuns : Prop :=
  ∀ n, n + 1 < 3 → (∀ m ≤ n, client.retried m = true) →
    ((client.runId n).isSome = true → client.failsAfterCreation n = false) ∧
      (client.runId n = none → ∀ m < n, client.runId m = none)

def laterCalls : List ClientCall :=
  match client.createRun n with
  | .error _ => []
  | .ok id =>
    client.postCreateCallback.toList.map (fun _ => .postCreateCallback id) ++
      if (client.callback n).isOk then [.awaitRun id (client.awaitRun n)] else []

end SyncClient

variable {client : SyncClient} {n : Nat}

theorem events_attempt (client : SyncClient) (n : Nat) :
    (attempt client n).events = .createRun (client.createRun n) :: client.laterCalls n := by
  unfold attempt SyncClient.laterCalls SyncClient.callback SyncClient.runCallback
  cases hcreate : client.createRun n with
  | error e => simp [Traced.mk_error_bind]
  | ok id =>
    cases hcallback : client.postCreateCallback with
    | none =>
      cases hawait : client.awaitRun n with
      | error e => simp [Traced.mk_ok_bind, Traced.mk_error_bind, Except.isOk, Except.toBool]
      | ok result =>
        by_cases hstatus : result.status = some "SCHEDULING_FAILED" <;>
          simp [Traced.mk_ok_bind, hstatus, Except.isOk, Except.toBool, Traced.raise]
    | some f =>
      cases hf : f n with
      | error e => simp [Traced.mk_ok_bind, Traced.mk_error_bind, Except.isOk, Except.toBool, hf]
      | ok _ =>
        cases hawait : client.awaitRun n with
        | error e => simp [Traced.mk_ok_bind, Traced.mk_error_bind, Except.isOk, Except.toBool, hf]
        | ok result =>
          by_cases hstatus : result.status = some "SCHEDULING_FAILED" <;>
            simp [Traced.mk_ok_bind, hstatus, Except.isOk, Except.toBool, hf, Traced.raise]

theorem outcome_attempt (client : SyncClient) (n : Nat) :
    (attempt client n).outcome =
      (client.createRun n).bind fun _ => (client.callback n).bind fun _ =>
        (client.awaitRun n).bind fun result =>
          if result.status = some "SCHEDULING_FAILED" then
            .error (.raised nexusSchedulingError "")
          else .ok (some result) := by
  unfold attempt SyncClient.callback
  rw [Traced.outcome_bind]
  congr 1
  funext id
  rw [Traced.outcome_bind]
  have hcallback : (client.runCallback id n).outcome =
      client.postCreateCallback.elim (.ok ()) fun f => f n := by
    unfold SyncClient.runCallback
    cases client.postCreateCallback <;> rfl
  rw [hcallback]
  congr 1
  funext _
  rw [Traced.outcome_bind]
  congr 1
  funext result
  split <;> rfl

theorem retries_createAndAwaitPolicy (propagateError : Bool) (e : PyExc) :
    (createAndAwaitPolicy propagateError).retries e =
      (e.isInstance networkError || e.isInstance nexusSchedulingError) := by
  simp [createAndAwaitPolicy, NexusClientRetryPolicy.default, NexusClientRetryPolicy.retries]

theorem retries_throughFuture (propagateError : Bool) (e : PyExc) :
    (createAndAwaitPolicy propagateError).retries e.throughFuture =
      SyncClient.retriedError e := by
  rw [retries_createAndAwaitPolicy, SyncClient.retriedError]
  cases hstop : e.isInstance stopIteration with
  | true =>
    have hreplaced : e.throughFuture.cls = runtimeError := PyExc.cls_replaceStopIteration hstop
    unfold PyExc.isInstance
    rw [hreplaced]
    rfl
  | false =>
    rw [show e.throughFuture = e from PyExc.replaceStopIteration_of_not hstop]
    rfl

theorem retried_awaitedAttempt (propagateError : Bool) (client : SyncClient) (n : Nat) :
    (awaitedAttempt client n).retried (createAndAwaitPolicy propagateError).retries =
      client.retried n := by
  unfold Traced.retried SyncClient.retried
  rw [awaitedAttempt, coroutine_runBlocking, runBlocking, Traced.outcome_mapError, outcome_attempt]
  cases client.createRun n with
  | error e => exact retries_throughFuture propagateError e
  | ok id =>
  cases client.callback n with
  | error e => exact retries_throughFuture propagateError e
  | ok _ =>
  cases client.awaitRun n with
  | error e => exact retries_throughFuture propagateError e
  | ok result =>
    by_cases hstatus : result.status = some "SCHEDULING_FAILED"
    · simp only [Except.bind, hstatus, if_true, decide_true]
      exact retries_throughFuture propagateError _
    · simp [Except.bind, hstatus, Except.mapError]

/-! ### The calls before an attempt -/

def callsBefore (client : SyncClient) (n : Nat) : List ClientCall :=
  (List.range n).flatMap fun i => (attempt client i).events

theorem callsBefore_succ (client : SyncClient) (n : Nat) :
    callsBefore client (n + 1) =
      callsBefore client n ++ .createRun (client.createRun n) :: client.laterCalls n := by
  rw [callsBefore, List.range_succ, List.flatMap_append, List.flatMap_singleton, events_attempt]
  rfl

theorem not_createRun_laterCalls {outcome : Except PyExc (Option String)} :
    .createRun outcome ∉ client.laterCalls n := by
  unfold SyncClient.laterCalls
  cases client.createRun n with
  | error e => simp
  | ok id =>
    simp only [List.mem_append, List.mem_map]
    rintro (⟨_, -, h⟩ | h)
    · cases h
    · split at h <;> simp at h

theorem runId_eq_some_iff {id : String} :
    client.runId n = some id ↔ client.createRun n = .ok (some id) := by
  unfold SyncClient.runId
  cases client.createRun n with
  | error e => simp [Except.toOption]
  | ok id' => simp [Except.toOption]

theorem createRun_mem_callsBefore {id : String} :
    .createRun (.ok (some id)) ∈ callsBefore client n ↔ ∃ m < n, client.runId m = some id := by
  simp only [callsBefore, List.mem_flatMap, List.mem_range, events_attempt, List.mem_cons,
    ClientCall.createRun.injEq, not_createRun_laterCalls, or_false, runId_eq_some_iff]
  exact exists_congr fun m => and_congr_right fun _ => eq_comm

/-- The last call of the attempt observed failed scheduling of the run that the attempt created. -/
theorem getLast?_callsBefore_succ (client : SyncClient) (n : Nat) :
    (∃ id result, (callsBefore client (n + 1)).getLast? = some (.awaitRun (some id) (.ok result)) ∧
        result.status = some "SCHEDULING_FAILED") ↔
      (client.runId n).isSome = true ∧ (client.callback n).isOk = true ∧
        ∃ result, client.awaitRun n = .ok result ∧ result.status = some "SCHEDULING_FAILED" := by
  rw [callsBefore_succ, List.getLast?_append_cons]
  unfold SyncClient.laterCalls SyncClient.runId
  cases hcreate : client.createRun n with
  | error e => simp [Except.toOption]
  | ok id =>
  cases hcallback : (client.callback n).isOk with
  | true =>
    simp only [if_true]
    rw [← List.cons_append, List.getLast?_concat]
    simp only [Except.toOption, Option.join_some, Option.some.injEq, ClientCall.awaitRun.injEq,
      true_and]
    constructor
    · rintro ⟨id', result, ⟨rfl, hawait⟩, hstatus⟩
      exact ⟨rfl, result, hawait, hstatus⟩
    · rintro ⟨hid, result, hawait, hstatus⟩
      obtain ⟨id', rfl⟩ := Option.isSome_iff_exists.mp hid
      exact ⟨id', result, ⟨rfl, hawait⟩, hstatus⟩
  | false => cases client.postCreateCallback <;> simp

/-- A retried attempt that created a run observed failed scheduling, or failed after that. -/
theorem observed_iff_of_retried {id : Option String} (hcreate : client.createRun n = .ok id)
    (hretried : client.retried n = true) :
    ((client.callback n).isOk = true ∧
        ∃ result, client.awaitRun n = .ok result ∧ result.status = some "SCHEDULING_FAILED") ↔
      client.failsAfterCreation n = false := by
  unfold SyncClient.retried at hretried
  unfold SyncClient.failsAfterCreation
  rw [hcreate] at hretried
  cases hcallback : client.callback n with
  | error e => simp [Except.isOk, Except.toBool]
  | ok _ =>
  cases hawait : client.awaitRun n with
  | error e => simp [Except.isOk, Except.toBool]
  | ok result =>
    rw [hcallback, hawait] at hretried
    have hstatus : result.status = some "SCHEDULING_FAILED" := of_decide_eq_true hretried
    simp [Except.isOk, Except.toBool, hstatus]

/-- After a retried attempt, no duplicate is created exactly if the attempt kept its run. -/
theorem mayCreate_succ_iff (hretried : client.retried n = true) :
    MayCreate (callsBefore client (n + 1)) ↔
      ((client.runId n).isSome = true → client.failsAfterCreation n = false) ∧
        (client.runId n = none → ∀ m < n, client.runId m = none) := by
  unfold MayCreate
  rw [getLast?_callsBefore_succ]
  have hnone : (∀ id, .createRun (.ok (some id)) ∉ callsBefore client (n + 1)) ↔
      ∀ m < n + 1, client.runId m = none := by
    simp only [createRun_mem_callsBefore, not_exists, not_and]
    exact ⟨fun h m hm => Option.eq_none_iff_forall_ne_some.mpr fun id => h id m hm,
      fun h id m hm => by simp [h m hm]⟩
  rw [hnone]
  cases hid : client.runId n with
  | none =>
    simp only [Option.isSome_none, Bool.false_eq_true, false_and, or_false, false_implies, true_and,
      true_implies]
    refine ⟨fun h m hm => h m (by omega), fun h m hm => ?_⟩
    rcases Nat.lt_succ_iff_lt_or_eq.mp hm with hm | rfl
    · exact h m hm
    · exact hid
  | some id =>
    have hlast : ¬ ∀ m < n + 1, client.runId m = none := fun h => by
      rw [h n (by omega)] at hid
      cases hid
    have hkept := observed_iff_of_retried (runId_eq_some_iff.mp hid) hretried
    simp only [hlast, Option.isSome_some, true_and, false_or, hkept, true_implies, reduceCtorEq,
      false_implies, and_true]

theorem callsBefore_prefix (client : SyncClient) {n k : Nat} (h : n ≤ k) :
    callsBefore client n <+: callsBefore client k := by
  induction k, h using Nat.le_induction with
  | base => exact List.prefix_rfl
  | succ k _ ih =>
    rw [callsBefore_succ]
    exact ih.trans (List.prefix_append _ _)

theorem justified_callsBefore_iff (client : SyncClient) (k : Nat) :
    Justified NotDuplicate (callsBefore client k) ↔
      ∀ n < k, MayCreate (callsBefore client n) := by
  constructor
  · intro h n hn
    obtain ⟨rest, hrest⟩ := callsBefore_prefix client (Nat.succ_le_of_lt hn)
    rw [callsBefore_succ, List.append_assoc, List.cons_append] at hrest
    exact h _ _ _ hrest.symm
  · intro h
    induction k with
    | zero => exact .nil _
    | succ k ih =>
      have hcreate : NotDuplicate (callsBefore client k) (.createRun (client.createRun k)) :=
        h k (by omega)
      rw [callsBefore_succ, List.append_cons]
      refine ((ih fun n hn => h n (by omega)).snoc hcreate).append fun before e he => ?_
      cases e with
      | createRun _ => exact absurd he not_createRun_laterCalls
      | postCreateCallback _ => trivial
      | awaitRun _ _ => trivial

/-- `create_and_await` submits no duplicate run exactly if each retried attempt keeps its run. -/
theorem no_duplicate_run_iff (client : SyncClient) (propagateError : Bool) :
    Justified NotDuplicate (createAndAwait client propagateError).events ↔ client.KeepsRuns := by
  have hcalls : (createAndAwait client propagateError).events = callsBefore client
      ((createAndAwaitPolicy propagateError).attempts (awaitedAttempt client)) := by
    rw [createAndAwait_eq]
    exact NexusClientRetryPolicy.events_executeWith
  rw [hcalls, justified_callsBefore_iff]
  have hlt (n : Nat) :
      n + 1 < (createAndAwaitPolicy propagateError).attempts (awaitedAttempt client) ↔
        n + 1 < 3 ∧ ∀ m ≤ n, client.retried m = true := by
    rw [NexusClientRetryPolicy.attempts, Traced.succ_lt_attempts_iff]
    simp only [Nat.zero_add, retried_awaitedAttempt]
    rfl
  unfold SyncClient.KeepsRuns
  constructor
  · intro h n hn hretried
    exact (mayCreate_succ_iff (hretried n le_rfl)).mp (h (n + 1) ((hlt n).mpr ⟨hn, hretried⟩))
  · intro h n hn
    cases n with
    | zero => exact .inl (by simp [callsBefore])
    | succ n =>
      obtain ⟨hbound, hretried⟩ := (hlt n).mp hn
      exact (mayCreate_succ_iff (hretried n le_rfl)).mpr (h n hbound hretried)

def resultWith (status : String) : RunResult :=
  ⟨⟨.none, .none⟩, none, none, none, none, some status⟩

/-- The network fails while the first run is awaited. -/
def interrupted : SyncClient where
  createRun n := .ok (some (toString n))
  postCreateCallback := none
  awaitRun n := if n = 0 then .error (.raised networkError "") else .ok (resultWith "COMPLETED")

/-- Two runs are created, and the first is still running. -/
theorem duplicate_run_after_networkError :
    ¬ Justified NotDuplicate (createAndAwait interrupted true).events := by
  intro h
  rw [createAndAwait_eq] at h
  have hcreate : MayCreate [.createRun (.ok (some "0")),
      .awaitRun (some "0") (.error (.raised networkError ""))] :=
    h _ (.createRun (.ok (some "1")))
      [.awaitRun (some "1") (.ok (resultWith "COMPLETED"))] rfl
  rcases hcreate with hnone | ⟨id, result, hlast, -⟩
  · exact hnone "0" (by simp)
  · simp at hlast

end NexusSdk.Client
