import NexusSdk.Client.CreateAndAwait

/-! `create_and_await` with `propagate_error=False`: which errors of its attempts reach the caller. -/

namespace NexusSdk.Client

open Lib

namespace SyncClient

variable (client : SyncClient) (n : Nat)

/-- The exception of the first call in attempt number `n` that fails. -/
def attemptError : Option PyExc :=
  match client.createRun n, client.callback n, client.awaitRun n with
  | .error e, _, _ | .ok _, .error e, _ | .ok _, .ok _, .error e => some e
  | .ok _, .ok _, .ok _ => none

/-- Every attempt that is made and whose calls fail fails with an error that is retried. -/
def FailsRetryably : Prop :=
  ∀ n < 3, (∀ m < n, client.retried m = true) → ∀ e, client.attemptError n = some e →
    retriedError e = true

/-- The errors of the client are contained by `propagate_error=False`. -/
structure ContainsErrors : Prop where
  returns : ∃ result, (createAndAwait client false).outcome = .ok result
  none_accepted : (createAndAwait client false).outcome = .ok none →
    ∀ id result, .awaitRun id (.ok result) ∈ (createAndAwait client false).events →
      result.status = some "SCHEDULING_FAILED"
  propagated : (createAndAwait client false).outcome = .ok none →
    ∃ e, (createAndAwait client true).outcome = .error e

end SyncClient

variable {client : SyncClient} {n : Nat}

/-- A call of the attempt fails, or the status of its result decides. -/
theorem attempt_cases (client : SyncClient) (n : Nat) :
    (∃ e, client.attemptError n = some e ∧ (attempt client n).outcome = .error e ∧
      client.retried n = SyncClient.retriedError e) ∨
    ∃ result, client.attemptError n = none ∧ client.awaitRun n = .ok result ∧
      client.retried n = decide (result.status = some "SCHEDULING_FAILED") ∧
      (client.retried n = false → (attempt client n).outcome = .ok (some result)) := by
  rw [outcome_attempt]
  unfold SyncClient.attemptError SyncClient.retried
  cases client.createRun n with
  | error e => exact .inl ⟨e, rfl, rfl, rfl⟩
  | ok id =>
  cases client.callback n with
  | error e => exact .inl ⟨e, rfl, rfl, rfl⟩
  | ok _ =>
  cases client.awaitRun n with
  | error e => exact .inl ⟨e, rfl, rfl, rfl⟩
  | ok result => exact .inr ⟨result, rfl, rfl, rfl, fun h => if_neg (of_decide_eq_false h)⟩

/-- The result of a run that is awaited in a retried attempt is not accepted. -/
theorem status_of_awaitRun {id : Option String} {result : RunResult}
    (h : .awaitRun id (.ok result) ∈ (attempt client n).events) (hretried : client.retried n = true) :
    result.status = some "SCHEDULING_FAILED" := by
  have hmem : .awaitRun id (.ok result) ∈ client.laterCalls n := by
    rw [events_attempt] at h
    simpa using h
  unfold SyncClient.laterCalls at hmem
  unfold SyncClient.retried at hretried
  cases hcreate : client.createRun n with
  | error e =>
    rw [hcreate] at hmem
    cases hmem
  | ok id' =>
  rw [hcreate] at hmem hretried
  cases hcallback : client.callback n with
  | error e => simp [hcallback, Except.isOk, Except.toBool] at hmem
  | ok _ =>
  have hawait : client.awaitRun n = .ok result := by
    simp [hcallback, Except.isOk, Except.toBool] at hmem
    exact hmem.2.symm
  rw [hcallback, hawait] at hretried
  exact of_decide_eq_true hretried

/-! ### The outcomes of `create_and_await` -/

/-- How an outcome ends, its exception aside. -/
def ends {β : Type} (outcome : Except PyExc β) : Except Unit β :=
  outcome.mapError (Function.const PyExc ())

theorem eq_ok_of_ends {β : Type} {outcome : Except PyExc β} {b : β}
    (h : ends outcome = .ok b) : outcome = .ok b := Traced.mapError_eq_ok_iff.mp h

theorem eq_error_of_ends {β : Type} {outcome : Except PyExc β} {u : Unit}
    (h : ends outcome = .error u) : ∃ e, outcome = .error e := by
  obtain ⟨e, he, -⟩ := Traced.mapError_eq_error_iff.mp h
  exact ⟨e, he⟩

/-- Either an attempt is not retried, and decides how the operation ends, or all three are. -/
theorem createAndAwait_cases (client : SyncClient) (propagateError : Bool) :
    (∃ k < 3, (∀ m < k, client.retried m = true) ∧ client.retried k = false ∧
      ends (createAndAwait client propagateError).outcome = ends (attempt client k).outcome) ∨
    (∀ m < 3, client.retried m = true) ∧
      ends (createAndAwait client propagateError).outcome =
        ends ((createAndAwaitPolicy propagateError).handleRetryExhaust (α := RunResult)
          "Fatal error when creating/awaiting a run") := by
  have hnothing : ∀ e ex, Function.const PyExc () (awaitedDuring e ex) =
      Function.const PyExc () e := fun _ _ => rfl
  have hcases := (createAndAwaitPolicy propagateError).executeWith_cases hnothing
    (awaitedAttempt client) "Fatal error when creating/awaiting a run"
  simp only [retried_awaitedAttempt] at hcases
  rw [createAndAwait_eq]
  have hends {β : Type} (x : Traced ClientCall PyExc β) :
      ends (coroutine x).outcome = ends x.outcome := mapError_mapError _ _ _
  rw [hends]
  rcases hcases with ⟨k, hk, -, hbefore, hlast, hout⟩ | ⟨-, hall, hout⟩
  · refine .inl ⟨k, hk, hbefore, hlast, hout.trans ?_⟩
    exact (hends _).trans (mapError_mapError _ _ _)
  · exact .inr ⟨hall, hout⟩

/-- If all attempts are retried, the flag decides whether the exhaustion raises. -/
theorem exhausted_createAndAwait (hall : ∀ m < 3, client.retried m = true) :
    (createAndAwait client false).outcome = .ok none ∧
      ∃ e, (createAndAwait client true).outcome = .error e := by
  constructor
  · rcases createAndAwait_cases client false with ⟨k, hk, -, hlast, -⟩ | ⟨-, hout⟩
    · rw [hall k hk] at hlast
      cases hlast
    · exact eq_ok_of_ends hout
  · rcases createAndAwait_cases client true with ⟨k, hk, -, hlast, -⟩ | ⟨-, hout⟩
    · rw [hall k hk] at hlast
      cases hlast
    · exact eq_error_of_ends hout

/-- The result of an attempt that fails with an error that is not retried is that error. -/
theorem not_returns_of_attemptError (propagateError : Bool) {e : PyExc} (hn : n < 3)
    (hbefore : ∀ m < n, client.retried m = true) (he : client.attemptError n = some e)
    (hretried : client.retried n = false) :
    ∃ e, (createAndAwait client propagateError).outcome = .error e := by
  rcases createAndAwait_cases client propagateError with ⟨k, hk, hbefore', hlast, hout⟩ | ⟨hall, -⟩
  · obtain rfl : k = n := by
      rcases Nat.lt_trichotomy k n with hlt | heq | hlt
      · rw [hbefore k hlt] at hlast
        cases hlast
      · exact heq
      · rw [hbefore' n hlt] at hretried
        cases hretried
    rcases attempt_cases client k with ⟨e', he', houtcome, -⟩ | ⟨result, he', -⟩
    · rw [houtcome] at hout
      exact eq_error_of_ends hout
    · rw [he'] at he
      cases he
  · rw [hall n hn] at hretried
    cases hretried

theorem mem_events_createAndAwait {propagateError : Bool} {c : ClientCall}
    (h : c ∈ (createAndAwait client propagateError).events) :
    ∃ n < 3, c ∈ (attempt client n).events := by
  rw [createAndAwait_eq, coroutine, Traced.events_mapError,
    NexusClientRetryPolicy.events_executeWith] at h
  obtain ⟨n, hn, hmem⟩ := List.mem_flatMap.mp h
  exact ⟨n, (List.mem_range.mp hn).trans_le (NexusClientRetryPolicy.attempts_le _ _), hmem⟩

/-- `create_and_await` contains the errors of its attempts exactly if each attempt that is made and
whose calls fail fails with an error that is retried. -/
theorem contains_errors_iff (client : SyncClient) :
    client.ContainsErrors ↔ client.FailsRetryably := by
  constructor
  · rintro ⟨⟨result, hresult⟩, -, -⟩ n hn hbefore e he
    rcases attempt_cases client n with ⟨e', he', -, hretried⟩ | ⟨result', he', -⟩
    · obtain rfl : e' = e := Option.some.inj (he'.symm.trans he)
      by_contra hnot
      have hfalse : client.retried n = false := hretried.trans (by simpa using hnot)
      obtain ⟨e'', herror⟩ := not_returns_of_attemptError false hn hbefore he hfalse
      cases hresult.symm.trans herror
    · rw [he'] at he
      cases he
  · intro hfails
    rcases createAndAwait_cases client false with ⟨k, hk, hbefore, hlast, hout⟩ | ⟨hall, hout⟩
    · rcases attempt_cases client k with ⟨e, he, -, hretried⟩ | ⟨result, -, -, -, hattempt⟩
      · have htrue : client.retried k = true := hretried.trans (hfails k hk hbefore e he)
        rw [htrue] at hlast
        cases hlast
      · rw [hattempt hlast] at hout
        have hreturns := eq_ok_of_ends hout
        refine ⟨⟨some result, hreturns⟩, fun hnone => ?_, fun hnone => ?_⟩
        · cases hreturns.symm.trans hnone
        · cases hreturns.symm.trans hnone
    · obtain ⟨hnone, hraises⟩ := exhausted_createAndAwait hall
      refine ⟨⟨none, hnone⟩, fun _ id result hmem => ?_, fun _ => hraises⟩
      obtain ⟨n, hn, hevent⟩ := mem_events_createAndAwait hmem
      exact status_of_awaitRun hevent (hall n hn)

/-- The scheduler rejects the submission. -/
def rejected : SyncClient where
  createRun _ := .error (.raised badRequestError "")
  postCreateCallback := none
  awaitRun _ := .ok (resultWith "COMPLETED")

/-- The error of the client reaches the caller instead of an empty value. -/
theorem badRequestError_not_contained :
    (createAndAwait rejected false).outcome = .error (.raised badRequestError "") ∧
      ¬ rejected.ContainsErrors := by
  have houtcome : (createAndAwait rejected false).outcome = .error (.raised badRequestError "") := by
    have hretried : (awaitedAttempt rejected 0).retried (createAndAwaitPolicy false).retries =
        false := by
      rw [retried_awaitedAttempt]
      decide
    have hfirst : (createAndAwaitPolicy false).executeWith awaitedDuring (awaitedAttempt rejected)
        "Fatal error when creating/awaiting a run" = awaitedAttempt rejected 0 :=
      Traced.retry_of_not_retried hretried 2
    rw [createAndAwait_eq, hfirst]
    rfl
  refine ⟨houtcome, ?_⟩
  rintro ⟨⟨result, hresult⟩, -, -⟩
  cases houtcome.symm.trans hresult

end NexusSdk.Client
