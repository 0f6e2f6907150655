import NexusSdk.Client.CompleteRun
import NexusSdk.Core.Report
import NexusSdk.Core.RunOutcome

/-! A run whose completion goes through the async client of the receiver: what the process has asked
of the receiver when it ends, and what it knows of the answer. -/

namespace NexusSdk.Client

open Lib

/-! ### The calls of one completion -/

def SyncReceiver.submissions (receiver : SyncReceiver) (count : Nat) : List ReceiverCall :=
  (List.range count).map fun n => .completeRun (receiver.completeRun n)

def SyncReceiver.checks (receiver : SyncReceiver) (count : Nat) : List ReceiverCall :=
  (List.range count).map fun n => .checkRun (receiver.checkRun n)

/-- The calls of a completion without callback: the result is submitted until a submission returns
or fails for good, and then checked until a check returns `True` or fails for good. -/
structure Handshake (receiver : SyncReceiver) (submissions checks : Nat)
    (calls : List ReceiverCall) : Prop where
  calls_eq : calls = receiver.submissions submissions ++ receiver.checks checks
  submissions_le : submissions ≤ 3
  checks_le : checks ≤ 10
  resubmitted : ∀ n, n + 1 < submissions →
    ∃ e, receiver.completeRun n = .error e ∧ e.isInstance networkError = true
  rechecked : ∀ n, n + 1 < checks → receiver.checkRun n = .ok none ∨
    receiver.checkRun n = .ok (some false) ∨ ∃ e, receiver.checkRun n = .error e ∧
      (e.isInstance networkError || e.isInstance nexusReceiverResultNotCommittedError) = true
  submitted : 0 < checks → ∃ last, submissions = last + 1 ∧ receiver.completeRun last = .ok ()

/-- A submission succeeded, and a later check returned `True`. -/
def AcknowledgedBy (calls : List ReceiverCall) : Prop :=
  ∃ before after, calls = before ++ .completeRun (.ok ()) :: after ∧
    .checkRun (.ok (some true)) ∈ after

section Receiver

variable (receiver : SyncReceiver)

/-- The attempts of the async client to submit the result. -/
def submitting (n : Nat) : Traced ReceiverCall PyExc (Option Unit) :=
  coroutine (runBlocking (receiver.submit n))

/-- The attempts of the async client to see the result committed. -/
def checking (n : Nat) : Traced ReceiverCall PyExc (Option Unit) :=
  coroutine (runBlocking (checkRunCommitted receiver n))

/-- The exceptions aside, a completion is its two retried parts. -/
theorem completeRun_none (algorithm requestId : String) :
    let x := NexusReceiverAsyncClient.completeRun receiver algorithm requestId none
    let parts := NexusClientRetryPolicy.default.executeWith awaitedDuring (submitting receiver)
        (submissionMessage algorithm requestId) >>= fun _ =>
      ackAwaitPolicy.executeWith awaitedDuring (checking receiver)
        (acknowledgementMessage algorithm requestId)
    x.events = parts.events ∧ x.outcome.isOk = parts.outcome.isOk := by
  intro x parts
  have hx : x = coroutine (coroutine (NexusClientRetryPolicy.default.executeWith awaitedDuring
      (submitting receiver) (submissionMessage algorithm requestId)) >>= fun _ =>
        coroutine (ackAwaitPolicy.executeWith awaitedDuring (checking receiver)
          (acknowledgementMessage algorithm requestId))) := by
    unfold x NexusReceiverAsyncClient.completeRun
    simp only [NexusClientAsyncRetryPolicy.execute_eq]
    rfl
  rw [hx]
  unfold parts
  obtain ⟨submissions, e | a⟩ := NexusClientRetryPolicy.default.executeWith awaitedDuring
    (submitting receiver) (submissionMessage algorithm requestId)
  · exact ⟨rfl, rfl⟩
  · obtain ⟨checks, e | b⟩ := ackAwaitPolicy.executeWith awaitedDuring (checking receiver)
      (acknowledgementMessage algorithm requestId) <;> exact ⟨rfl, rfl⟩

theorem events_checkRunCommitted (n : Nat) :
    (checkRunCommitted receiver n).events = [.checkRun (receiver.checkRun n)] := by
  unfold checkRunCommitted
  rcases receiver.checkRun n with e | (_ | _ | _) <;> rfl

theorem events_submitting (n : Nat) :
    (submitting receiver n).events = [.completeRun (receiver.completeRun n)] := rfl

theorem events_checking (n : Nat) :
    (checking receiver n).events = [.checkRun (receiver.checkRun n)] :=
  events_checkRunCommitted receiver n

variable {receiver}

theorem submit_eq_ok {n : Nat} {a : Option Unit} (h : (receiver.submit n).outcome = .ok a) :
    receiver.completeRun n = .ok () := by
  unfold SyncReceiver.submit at h
  cases hcomplete : receiver.completeRun n with
  | ok _ => rfl
  | error e => simp [hcomplete, Except.map] at h

theorem submit_eq_error {n : Nat} {e : PyExc} (h : (receiver.submit n).outcome = .error e) :
    receiver.completeRun n = .error e := by
  unfold SyncReceiver.submit at h
  cases hcomplete : receiver.completeRun n with
  | ok _ => simp [hcomplete, Except.map] at h
  | error e' => simpa [hcomplete, Except.map] using h

/-- A check that is retried was answered with `None` or `False`, or failed. -/
theorem checkRunCommitted_eq_error {n : Nat} {e : PyExc}
    (h : (checkRunCommitted receiver n).outcome = .error e) :
    receiver.checkRun n = .ok none ∨ receiver.checkRun n = .ok (some false) ∨
      receiver.checkRun n = .error e := by
  unfold checkRunCommitted at h
  rcases hcheck : receiver.checkRun n with e' | (_ | _ | _)
  · rw [hcheck] at h
    exact .inr (.inr (congrArg Except.error (Except.error.inj h)))
  · exact .inl rfl
  · exact .inr (.inl rfl)
  · rw [hcheck] at h
    cases h

theorem checkRunCommitted_of_true {n : Nat} (h : receiver.checkRun n = .ok (some true)) :
    (checkRunCommitted receiver n).outcome = .ok none := by
  rw [checkRunCommitted, h]
  rfl

theorem retries_ackAwaitPolicy (e : PyExc) : ackAwaitPolicy.retries e =
    (e.isInstance networkError || e.isInstance nexusReceiverResultNotCommittedError) := by
  rw [← Bool.or_false (e.isInstance nexusReceiverResultNotCommittedError)]
  rfl

/-- What the wait for the commit retries is the exception of the check. -/
theorem checking_retried {n : Nat} {e : PyExc} (he : (checking receiver n).outcome = .error e)
    (hretries : ackAwaitPolicy.retries e = true) :
    (checkRunCommitted receiver n).outcome = .error e ∧ e.isInstance stopIteration = false := by
  rw [retries_ackAwaitPolicy, Bool.or_eq_true] at hretries
  rcases hretries with hclass | hclass
  · exact error_of_blocking rfl he hclass
  · exact error_of_blocking rfl he hclass

theorem submitting_retried {n : Nat} {e : PyExc} (he : (submitting receiver n).outcome = .error e)
    (hretries : NexusClientRetryPolicy.default.retries e = true) :
    (receiver.submit n).outcome = .error e ∧ e.isInstance stopIteration = false := by
  rw [retries_default] at hretries
  exact error_of_blocking rfl he hretries

/-- All checks but the last are retried. -/
theorem recheck_of_lt {n : Nat} (h : n + 1 < ackAwaitPolicy.attempts (checking receiver)) :
    receiver.checkRun n = .ok none ∨ receiver.checkRun n = .ok (some false) ∨
      ∃ e, receiver.checkRun n = .error e ∧
        (e.isInstance networkError ||
          e.isInstance nexusReceiverResultNotCommittedError) = true := by
  obtain ⟨e, he, hretries⟩ := NexusClientRetryPolicy.retried_of_lt h
  have hcheck := (checking_retried he hretries).1
  exact (checkRunCommitted_eq_error hcheck).imp_right
    (Or.imp_right fun hraised => ⟨e, hraised, retries_ackAwaitPolicy e ▸ hretries⟩)

theorem resubmission_of_lt {n : Nat}
    (h : n + 1 < NexusClientRetryPolicy.default.attempts (submitting receiver)) :
    ∃ e, receiver.completeRun n = .error e ∧ e.isInstance networkError = true := by
  obtain ⟨e, he, hretries⟩ := NexusClientRetryPolicy.retried_of_lt h
  exact ⟨e, submit_eq_error (submitting_retried he hretries).1, retries_default e ▸ hretries⟩

/-- The wait for the commit returns exactly if one of its checks does with `True`. -/
theorem ackAwait_isOk_iff (message : String) :
    (ackAwaitPolicy.executeWith awaitedDuring (checking receiver) message).outcome.isOk = true ↔
      .checkRun (.ok (some true)) ∈
        receiver.checks (ackAwaitPolicy.attempts (checking receiver)) := by
  have hevents := ackAwaitPolicy.events_executeWith_eq awaitedDuring message
    (events_checking receiver)
  constructor
  · intro hok
    cases hout : (ackAwaitPolicy.executeWith awaitedDuring (checking receiver) message).outcome with
    | error e =>
      rw [hout] at hok
      cases hok
    | ok a =>
      rw [SyncReceiver.checks, ← hevents]
      exact execute_checkRunCommitted_ok message (attempts_blocking _) rfl hout
  · intro hmem
    obtain ⟨n, hn, hcheck⟩ := List.mem_map.mp hmem
    have hreturns := outcome_blocking_eq_ok.mpr
      (checkRunCommitted_of_true (ReceiverCall.checkRun.inj hcheck))
    rw [NexusClientRetryPolicy.execute_of_ok (List.mem_range.mp hn) hreturns]
    rfl

theorem acknowledgedBy_iff {submissions checks : Nat}
    (h : .completeRun (.ok ()) ∈ receiver.submissions submissions) :
    AcknowledgedBy (receiver.submissions submissions ++ receiver.checks checks) ↔
      .checkRun (.ok (some true)) ∈ receiver.checks checks := by
  constructor
  · rintro ⟨before, after, heq, hcheck⟩
    have hmem := List.mem_append_right before
      (List.mem_cons_of_mem (.completeRun (.ok ())) hcheck)
    rw [← heq] at hmem
    exact (List.mem_append.mp hmem).resolve_left (by simp [SyncReceiver.submissions])
  · intro hcheck
    obtain ⟨before, after, heq⟩ := List.append_of_mem h
    exact ⟨before, after ++ receiver.checks checks,
      by rw [heq, List.append_assoc, List.cons_append], List.mem_append_right _ hcheck⟩

/-- The calls of a completion; it returns exactly if they were acknowledged. -/
theorem completeRun_handshake (receiver : SyncReceiver) (algorithm requestId : String) :
    let x := NexusReceiverAsyncClient.completeRun receiver algorithm requestId none
    (∃ submissions checks, Handshake receiver submissions checks x.events) ∧
      (x.outcome.isOk = true ↔ AcknowledgedBy x.events) := by
  intro x
  have hsubmissions := NexusClientRetryPolicy.default.events_executeWith_eq awaitedDuring
    (submissionMessage algorithm requestId) (events_submitting receiver)
  have hchecks := ackAwaitPolicy.events_executeWith_eq awaitedDuring
    (acknowledgementMessage algorithm requestId) (events_checking receiver)
  obtain ⟨hevents, hisOk⟩ := completeRun_none receiver algorithm requestId
  rw [hevents, hisOk, Traced.outcome_bind, Traced.bind_def, Traced.bind]
  cases hsubmitted : (NexusClientRetryPolicy.default.executeWith awaitedDuring (submitting receiver)
      (submissionMessage algorithm requestId)).outcome with
  | error e =>
    -- no check follows a submission that failed
    refine ⟨⟨_, 0, hsubmissions.trans (List.append_nil _).symm,
      NexusClientRetryPolicy.attempts_le _ _, by omega, fun n => resubmission_of_lt,
      by simp, by simp⟩, iff_of_false (by simp [Except.isOk, Except.toBool, Except.bind]) ?_⟩
    rintro ⟨before, after, heq, hcheck⟩
    rw [hsubmissions] at heq
    have hmem := List.mem_append_right before
      (List.mem_cons_of_mem (.completeRun (.ok ())) hcheck)
    rw [← heq] at hmem
    simp at hmem
  | ok a =>
    have hsubmission := execute_submit_ok _ (attempts_blocking receiver.submit) rfl hsubmitted
    rw [show (fun n => coroutine (runBlocking (receiver.submit n))) = submitting receiver from rfl,
      hsubmissions] at hsubmission
    refine ⟨⟨_, _, congrArg₂ _ hsubmissions hchecks, NexusClientRetryPolicy.attempts_le _ _,
      NexusClientRetryPolicy.attempts_le _ _, fun n => resubmission_of_lt,
      fun n => recheck_of_lt, fun _ => ?_⟩, ?_⟩
    · obtain ⟨last, hlast, hok⟩ := NexusClientRetryPolicy.last_of_execute rfl hsubmitted
      exact ⟨last, hlast, submit_eq_ok (outcome_blocking_eq_ok.mp hok)⟩
    · rw [hsubmissions, hchecks]
      exact (ackAwait_isOk_iff _).trans (acknowledgedBy_iff hsubmission).symm

end Receiver

end NexusSdk.Client

namespace NexusSdk.Core

open Lib Client

/-! ### The receiver of a run -/

variable {env : Stages} {c : Completion} {accepted : Bool}

theorem accepted_of_completeRun {c' : Completion} {outcome : Except PyExc Unit}
    (h : .completeRun c accepted ∈ (completeRun c' outcome).events) : accepted = outcome.isOk :=
  (Activity.completeRun.inj (List.mem_singleton.mp h)).2

theorem accepted_of_submitResult {ex : Option PyExc}
    (h : .completeRun c accepted ∈ (submitResult env ex).events) :
    accepted = env.completeRun.isOk := by
  have hmetric {x : Run Unit} {metric : String}
      (hx : .completeRun c accepted ∈ (x >>= fun _ => Traced.emit (.increment metric)).events) :
      .completeRun c accepted ∈ x.events := by
    rcases Traced.mem_events_bind.mp hx with hx | ⟨_, -, hx⟩
    · exact hx
    · cases List.mem_singleton.mp hx
  unfold submitResult at h
  split at h
  · rcases Traced.mem_events_bind.mp h with h | ⟨uri, -, h⟩
    · cases h
    · exact accepted_of_completeRun (hmetric h)
  · exact accepted_of_completeRun (hmetric h)
  · cases h

theorem accepted_of_handleBootstrapError {e : PyExc}
    (h : .completeRun c accepted ∈ (handleBootstrapError env e).events) :
    accepted = env.reportError.isOk := by
  cases hreports : env.reports e with
  | true =>
    rw [handleBootstrapError_of_reports hreports, completeWithError] at h
    rcases Traced.mem_events_bind.mp h with h | ⟨_, -, h⟩
    · exact accepted_of_completeRun h
    · cases h
  | false =>
    obtain ⟨e', hexit, -⟩ := handleBootstrapError_of_not_reports hreports
    rw [hexit] at h
    cases h

theorem accepted_of_runAlgorithm (h : .completeRun c accepted ∈ (runAlgorithm env).events) :
    accepted = env.completeRun.isOk := by
  rcases runAlgorithm_cases env with ⟨exit, -, hrun⟩ | ⟨ex, -, -, -, -, hrun⟩
  · rw [hrun] at h
    cases h
  · rw [hrun] at h
    rcases Traced.mem_events_bind.mp h with h | ⟨_, -, h⟩
    · exact accepted_of_submitResult h
    · exact absurd h (completeRun_not_mem_recordTelemetry c accepted ex)

/-- Whether a completion is accepted is up to the client that the run asks. -/
theorem accepted_eq (h : .completeRun c accepted ∈ (activate env).events) :
    accepted = match env.bootstrap with
      | .ok _ => env.completeRun.isOk
      | .error _ => env.reportError.isOk := by
  have hstage {α β : Type} {x : Except PyExc α} {f : α → Run β}
      (hx : .completeRun c accepted ∈ (stage x >>= f).events) :
      ∃ a, .completeRun c accepted ∈ (f a).events := by
    rcases Traced.mem_events_bind.mp hx with hx | ⟨a, -, hx⟩
    · cases hx
    · exact ⟨a, hx⟩
  obtain ⟨-, h⟩ := hstage h
  obtain ⟨-, h⟩ := hstage h
  rcases Traced.mem_events_bind.mp h with h | ⟨_, hok, h⟩
  · cases hboot : env.bootstrap with
    | ok _ =>
      rw [runBootstrap_of_ok hboot] at h
      cases h
    | error e =>
      rw [runBootstrap, hboot] at h
      exact accepted_of_handleBootstrapError h
  · have hboot : env.bootstrap = .ok () := by
      cases hboot : env.bootstrap with
      | ok _ => rfl
      | error e =>
        obtain ⟨exit, hexit⟩ := handleBootstrapError_raises env e
        rw [runBootstrap, hboot] at hok
        simp [hexit, Except.mapError] at hok
    obtain ⟨-, h⟩ := hstage h
    obtain ⟨-, h⟩ := hstage h
    obtain ⟨-, h⟩ := hstage h
    rw [events_withExit] at h
    rw [hboot]
    exact accepted_of_runAlgorithm h

/-- A run that returns was accepted. -/
theorem accepted_of_returned (h : (activate env).outcome = .ok ()) :
    Accepted (activate env).events := by
  cases huntil : firstError env.untilStores with
  | error exit => exact absurd h (activate_of_unreached huntil (.ok ())).2
  | ok _ =>
    obtain ⟨hload, henter, hboot, hcontext, hinside⟩ := untilStores_eq_ok.mp huntil
    have hcompletion : firstError env.untilCompletion = .ok () := by
      rw [Stages.inContext, List.append_assoc, firstError_append] at hinside
      cases hcompletion : firstError env.untilCompletion with
      | ok _ => rfl
      | error exit =>
        rw [hcompletion] at hinside
        cases hinside
    rw [activate_of_entered hload henter]
    exact (runEntered_of_bootstrap_ok hboot).2.mpr
      ⟨hcontext, accepted_runAlgorithm.mpr hcompletion⟩

/-- A run whose clients of the receiver are the SDK's. -/
structure ReceiverRun where
  algorithm : String
  requestId : String
  /-- the client that the injector has -/
  receiver : SyncReceiver
  /-- the client of `_complete_with_error` -/
  errorReceiver : SyncReceiver
  /-- the other stages -/
  others : Stages

namespace ReceiverRun

variable (r : ReceiverRun)

def completing (receiver : SyncReceiver) : Traced ReceiverCall PyExc (Option Unit) :=
  NexusReceiverAsyncClient.completeRun receiver r.algorithm r.requestId none

def stages : Stages :=
  { r.others with
    completeRun := (r.completing r.receiver).outcome.map fun _ => ()
    reportError := (r.completing r.errorReceiver).outcome.map fun _ => () }

/-- The client that completes the run. -/
def client : SyncReceiver :=
  match r.others.bootstrap with
  | .ok _ => r.receiver
  | .error _ => r.errorReceiver

/-- What the process asks of the receiver. -/
def receiverCalls : List ReceiverCall :=
  (completions (activate r.stages).events).flatMap fun _ => (r.completing r.client).events

/-- The calls are those of one completion, if there is one. -/
theorem receiverCalls_cases :
    completions (activate r.stages).events = [] ∧ r.receiverCalls = [] ∨
      ∃ c, completions (activate r.stages).events = [c] ∧
        r.receiverCalls = (r.completing r.client).events := by
  rcases (reportedFirst_activate r.stages).completions with hnone | ⟨c, -, hone⟩
  · exact .inl ⟨hnone, by simp [receiverCalls, hnone]⟩
  · exact .inr ⟨c, hone, by simp [receiverCalls, hone]⟩

theorem accepted_stages {c : Completion} {accepted : Bool}
    (h : .completeRun c accepted ∈ (activate r.stages).events) :
    accepted = (r.completing r.client).outcome.isOk := by
  have hmap (x : Except PyExc (Option Unit)) : (x.map fun _ => ()).isOk = x.isOk := by
    cases x <;> rfl
  rw [accepted_eq h, client]
  show (match r.others.bootstrap with | .ok _ => _ | .error _ => _) = _
  cases r.others.bootstrap <;> exact hmap _

/-- An accepted completion was acknowledged. -/
theorem accepted_iff : Accepted (activate r.stages).events ↔ AcknowledgedBy r.receiverCalls := by
  rcases r.receiverCalls_cases with ⟨hnone, hcalls⟩ | ⟨c, hone, hcalls⟩
  · refine iff_of_false (fun ⟨c, hc⟩ => ?_) ?_
    · have hmem := mem_completions.mpr ⟨true, hc⟩
      rw [hnone] at hmem
      cases hmem
    · rintro ⟨before, after, heq, -⟩
      simp [hcalls] at heq
  · rw [hcalls, completing, ← (completeRun_handshake r.client r.algorithm r.requestId).2]
    constructor
    · rintro ⟨c', hc'⟩
      exact (r.accepted_stages hc').symm
    · intro hok
      obtain ⟨accepted, hc⟩ := mem_completions.mp (hone ▸ List.mem_singleton_self c)
      exact ⟨c, (r.accepted_stages hc).trans hok ▸ hc⟩

end ReceiverRun

/-- The receiver is asked at most once to complete the run, in a bounded number of calls.  That the
completion is accepted means that the receiver has acknowledged it, and if the process returns, it
has. -/
theorem run_acknowledged_iff (r : ReceiverRun) :
    (r.receiverCalls = [] ∨
      ∃ submissions checks, Handshake r.client submissions checks r.receiverCalls) ∧
    (Accepted (activate r.stages).events ↔ AcknowledgedBy r.receiverCalls) ∧
    ((activate r.stages).outcome = .ok () → AcknowledgedBy r.receiverCalls) := by
  refine ⟨?_, r.accepted_iff, fun h => r.accepted_iff.mp (accepted_of_returned h)⟩
  rcases r.receiverCalls_cases with ⟨-, hcalls⟩ | ⟨c, -, hcalls⟩
  · exact .inl hcalls
  · rw [hcalls]
    exact .inr (completeRun_handshake r.client r.algorithm r.requestId).1

end NexusSdk.Core
