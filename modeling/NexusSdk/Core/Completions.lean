import NexusSdk.Client.ListQueries
import NexusSdk.Core.Acknowledgement

/-! The completion by the sync helper beside that of the async client.  The helper retries the
submission with the policy of the wait for the commit, the async client with the default one. -/

namespace NexusSdk.Client

open Lib

namespace NexusClientRetryPolicy

variable {E α : Type} {p q : NexusClientRetryPolicy} {runnable : Nat → Traced E PyExc (Option α)}

/-- Two policies that make the same attempts, and have some left. -/
theorem execute_congr {k : Nat} (hp : k < p.retryCount.toNat) (hq : k < q.retryCount.toNat)
    (hbefore : ∀ j < k, ∃ e, (runnable j).outcome = .error e ∧ p.retries e = true ∧
      q.retries e = true)
    (hlast : ∀ e, (runnable k).outcome = .error e → p.retries e = false ∧ q.retries e = false)
    (message : String) : p.execute runnable message = q.execute runnable message := by
  refine Traced.retry_congr hp hq (fun j hj => ?_) ?_
  · obtain ⟨e, he, hp, hq⟩ := hbefore j hj
    rw [Nat.zero_add]
    exact ⟨Traced.retried_iff.mpr ⟨e, he, hp⟩, Traced.retried_iff.mpr ⟨e, he, hq⟩⟩
  · rw [Nat.zero_add]
    unfold Traced.retried
    cases hout : (runnable k).outcome with
    | ok a => exact ⟨rfl, rfl⟩
    | error e => exact hlast e hout

/-- The last attempt is not retried, if the bound is not reached. -/
theorem not_retried_of_last {k : Nat} (hlast : p.attempts runnable = k + 1)
    (hk : k + 1 < p.retryCount.toNat) {e : PyExc} (he : (runnable k).outcome = .error e) :
    p.retries e = false := by
  by_contra hretries
  have hmore : k + 1 < p.attempts runnable := lt_attempts hk fun m hm => by
    rcases Nat.lt_succ_iff_lt_or_eq.mp hm with hlt | rfl
    · exact retried_before (show k < p.attempts runnable by omega) hlt
    · exact Traced.retried_iff.mpr ⟨e, he, Bool.eq_true_of_not_eq_false hretries⟩
  omega

end NexusClientRetryPolicy

/-! ### The two completions -/

def ReceiverCall.isSubmission : ReceiverCall → Bool
  | .completeRun _ => true
  | _ => false

def ReceiverCall.isCheck : ReceiverCall → Bool
  | .checkRun _ => true
  | _ => false

section Parts

variable {receiver : SyncReceiver} {callback : Option (Except PyExc Unit)}
  {submission acknowledgement : Traced ReceiverCall PyExc (Option Unit)} {submissions checks : Nat}

/-- A completion from its two parts. -/
def completionOf (submission acknowledgement : Traced ReceiverCall PyExc (Option Unit))
    (callback : Option (Except PyExc Unit)) : Traced ReceiverCall PyExc (Option Unit) :=
  submission >>= fun _ => runCallback callback >>= fun _ => acknowledgement

/-- The outcome of a completion, by what raises first. -/
theorem outcome_completionOf : (completionOf submission acknowledgement callback).outcome =
    submission.outcome.bind fun _ => (callback.getD (.ok ())).bind fun _ =>
      acknowledgement.outcome := by
  obtain ⟨l, e | a⟩ := submission
  · rfl
  · rcases callback with _ | e | _ <;> rfl

theorem completionOf_of_raised {e : PyExc} (h : submission.outcome = .error e) :
    completionOf submission acknowledgement callback = submission := by
  obtain ⟨l, e' | a⟩ := submission
  · rfl
  · cases h

/-- A callback that raises is the last call. -/
theorem completionOf_of_callback_raised (acknowledgement : Traced ReceiverCall PyExc (Option Unit))
    (e : PyExc) : completionOf submission acknowledgement (some (.error e)) =
      submission >>= fun _ => ⟨[.onCompleteCallback], .error e⟩ := rfl

theorem outcome_of_callback {a : Option Unit} (h : submission.outcome = .ok a)
    (hcallback : ∀ e, callback ≠ some (.error e)) :
    (completionOf submission acknowledgement callback).outcome = acknowledgement.outcome := by
  rw [outcome_completionOf, h]
  rcases callback with _ | e | _
  · rfl
  · exact absurd rfl (hcallback e)
  · rfl

theorem countP_submissions (count : Nat) :
    (receiver.submissions count).countP ReceiverCall.isSubmission = count ∧
      (receiver.submissions count).countP ReceiverCall.isCheck = 0 := by
  simp [SyncReceiver.submissions, List.countP_map, Function.comp_def, ReceiverCall.isSubmission,
    ReceiverCall.isCheck]

theorem countP_checks (count : Nat) :
    (receiver.checks count).countP ReceiverCall.isSubmission = 0 ∧
      (receiver.checks count).countP ReceiverCall.isCheck = count := by
  simp [SyncReceiver.checks, List.countP_map, Function.comp_def, ReceiverCall.isSubmission,
    ReceiverCall.isCheck]

/-- The submissions of a completion are those of its first part. -/
theorem countP_isSubmission (callback : Option (Except PyExc Unit))
    (hsubmissions : submission.events = receiver.submissions submissions)
    (hchecks : acknowledgement.events = receiver.checks checks) :
    (completionOf submission acknowledgement callback).events.countP ReceiverCall.isSubmission =
      submissions := by
  have hfirst : submission.events.countP ReceiverCall.isSubmission = submissions :=
    hsubmissions ▸ (countP_submissions submissions).1
  have hsecond : acknowledgement.events.countP ReceiverCall.isSubmission = 0 :=
    hchecks ▸ (countP_checks checks).1
  obtain ⟨l, e | a⟩ := submission
  · exact hfirst
  · rcases callback with _ | e | _
    · simpa [completionOf, Traced.mk_ok_bind, runCallback, hsecond] using hfirst
    · simpa [completionOf, Traced.mk_ok_bind, Traced.mk_error_bind, runCallback,
        ReceiverCall.isSubmission] using hfirst
    · simpa [completionOf, Traced.mk_ok_bind, runCallback, hsecond, ReceiverCall.isSubmission]
        using hfirst

/-- If neither the submission nor the callback raises, the checks are those of the second part. -/
theorem countP_isCheck {a : Option Unit} (hsubmitted : submission.outcome = .ok a)
    (hsubmissions : submission.events = receiver.submissions submissions)
    (hchecks : acknowledgement.events = receiver.checks checks)
    (hcallback : ∀ e, callback ≠ some (.error e)) :
    (completionOf submission acknowledgement callback).events.countP ReceiverCall.isCheck =
      checks := by
  have hfirst : submission.events.countP ReceiverCall.isCheck = 0 :=
    hsubmissions ▸ (countP_submissions submissions).2
  have hsecond : acknowledgement.events.countP ReceiverCall.isCheck = checks :=
    hchecks ▸ (countP_checks checks).2
  obtain ⟨l, e | b⟩ := submission
  · cases hsubmitted
  · rcases callback with _ | e | _
    · simpa [completionOf, Traced.mk_ok_bind, runCallback, hsecond] using hfirst
    · exact absurd rfl (hcallback e)
    · simpa [completionOf, Traced.mk_ok_bind, runCallback, hsecond, ReceiverCall.isCheck]
        using hfirst

end Parts

/-- Submission number `last` is the last one in both completions, and nothing that they call raises a
`StopIteration`. -/
structure CompletesAlike (receiver : SyncReceiver) (callback : Option (Except PyExc Unit))
    (last : Nat) : Prop where
  last_lt : last < 3
  refused : ∀ n < last, ∃ e, receiver.completeRun n = .error e ∧
    e.isInstance networkError = true ∧ e.isInstance stopIteration = false
  last_error : ∀ e, receiver.completeRun last = .error e → e.isInstance networkError = false ∧
    e.isInstance nexusReceiverResultNotCommittedError = false ∧
    e.isInstance stopIteration = false
  callback_error : receiver.completeRun last = .ok () → ∀ e, callback = some (.error e) →
    e.isInstance stopIteration = false
  checked : receiver.completeRun last = .ok () → (∀ e, callback ≠ some (.error e)) → ∀ n < 10,
    (∀ m < n, (checkRunCommitted receiver m).retried ackAwaitPolicy.retries = true) →
      NoStopIteration (receiver.checkRun n)

section Alike

variable {receiver : SyncReceiver} (algorithm requestId : String)
  {callback : Option (Except PyExc Unit)} {last : Nat}

theorem asyncCompletion_eq (receiver : SyncReceiver) (callback : Option (Except PyExc Unit)) :
    NexusReceiverAsyncClient.completeRun receiver algorithm requestId callback =
      coroutine (completionOf
        (coroutine (NexusClientRetryPolicy.default.executeWith awaitedDuring (submitting receiver)
          (submissionMessage algorithm requestId)))
        (coroutine (ackAwaitPolicy.executeWith awaitedDuring (checking receiver)
          (acknowledgementMessage algorithm requestId))) callback) := by
  rw [NexusReceiverAsyncClient.completeRun]
  simp only [NexusClientAsyncRetryPolicy.execute_eq]
  rfl

theorem syncCompletion_eq (receiver : SyncReceiver) (callback : Option (Except PyExc Unit)) :
    SyncHelpers.completeRun receiver algorithm requestId callback 10 none
        nexusClientRuntimeError =
      completionOf (ackAwaitPolicy.execute receiver.submit (submissionMessage algorithm requestId))
        (ackAwaitPolicy.execute (checkRunCommitted receiver)
          (acknowledgementMessage algorithm requestId)) callback := by
  rw [SyncHelpers.completeRun]
  simp only [NexusClientSyncRetryPolicy.execute_eq]
  rfl

theorem noStopIteration_exhaust {p : NexusClientRetryPolicy}
    (hp : p.retryExhaustErrorType = some nexusClientRuntimeError) (message : String) :
    NoStopIteration (p.handleRetryExhaust message : Except PyExc (Option Unit)) := by
  intro e he
  rw [NexusClientRetryPolicy.handleRetryExhaust, hp] at he
  cases he
  rfl

theorem noStopIteration_check {n : Nat} (h : NoStopIteration (receiver.checkRun n)) :
    NoStopIteration (checkRunCommitted receiver n).outcome := by
  intro e he
  rw [checkRunCommitted, Traced.outcome_bind] at he
  cases hcheck : receiver.checkRun n with
  | error e' =>
    rw [hcheck] at he
    cases he
    exact h e hcheck
  | ok acked =>
    rw [hcheck] at he
    rcases acked with _ | _ | _ <;> cases he <;> rfl

namespace CompletesAlike

variable (h : CompletesAlike receiver callback last)
include h

theorem submit_noStopIteration {n : Nat} (hn : n ≤ last) :
    NoStopIteration (receiver.submit n).outcome := by
  intro e he
  have hraised := submit_eq_error he
  rcases Nat.lt_or_eq_of_le hn with hlt | rfl
  · obtain ⟨e', he', -, hstop⟩ := h.refused n hlt
    cases he'.symm.trans hraised
    exact hstop
  · exact (h.last_error e hraised).2.2

theorem attempts_le_last : NexusClientRetryPolicy.default.attempts receiver.submit ≤ last + 1 := by
  by_contra hmore
  obtain ⟨e, he, hretries⟩ := NexusClientRetryPolicy.retried_of_lt (not_le.mp hmore)
  rw [retries_default, (h.last_error e (submit_eq_error he)).1] at hretries
  cases hretries

theorem execute_submit_eq (message : String) : ackAwaitPolicy.execute receiver.submit message =
    NexusClientRetryPolicy.default.execute receiver.submit message := by
  have hlt := h.last_lt
  refine NexusClientRetryPolicy.execute_congr (show last < 10 by omega) hlt (fun n hn => ?_)
    (fun e he => ?_) _
  · obtain ⟨e, he, hnetwork, -⟩ := h.refused n hn
    refine ⟨e, ?_, ?_, ?_⟩
    · rw [SyncReceiver.submit, he]
      rfl
    · rw [retries_ackAwaitPolicy, hnetwork, Bool.true_or]
    · rw [retries_default, hnetwork]
  · obtain ⟨hnetwork, hcommit, -⟩ := h.last_error e (submit_eq_error he)
    rw [retries_ackAwaitPolicy, retries_default, hnetwork, hcommit]
    exact ⟨rfl, rfl⟩

/-- A submission that returns is the last one. -/
theorem completeRun_last (message : String) {a : Option Unit}
    (hok : (NexusClientRetryPolicy.default.execute receiver.submit message).outcome = .ok a) :
    receiver.completeRun last = .ok () := by
  obtain ⟨k, hk, hsubmitted⟩ := NexusClientRetryPolicy.last_of_execute rfl hok
  have hle := h.attempts_le_last
  rcases Nat.lt_or_eq_of_le (show k ≤ last by omega) with hlt | rfl
  · obtain ⟨e, he, -⟩ := h.refused k hlt
    cases he.symm.trans (submit_eq_ok hsubmitted)
  · exact submit_eq_ok hsubmitted

theorem submission_eq (message : String) :
    coroutine (NexusClientRetryPolicy.default.executeWith awaitedDuring (submitting receiver)
        message) = ackAwaitPolicy.execute receiver.submit message ∧
      NoStopIteration (ackAwaitPolicy.execute receiver.submit message).outcome := by
  rw [h.execute_submit_eq]
  refine NexusClientRetryPolicy.coroutine_executeWith (fun n hn => ?_)
    (noStopIteration_exhaust rfl _)
  have hle := hn.trans_le h.attempts_le_last
  have hstop := h.submit_noStopIteration (Nat.le_of_lt_succ hle)
  exact ⟨blocking_eq_self hstop, hstop⟩

theorem acknowledgement_eq (hok : receiver.completeRun last = .ok ())
    (hcallback : ∀ e, callback ≠ some (.error e)) (message : String) :
    coroutine (ackAwaitPolicy.executeWith awaitedDuring (checking receiver) message) =
        ackAwaitPolicy.execute (checkRunCommitted receiver) message ∧
      NoStopIteration (ackAwaitPolicy.execute (checkRunCommitted receiver) message).outcome := by
  refine NexusClientRetryPolicy.coroutine_executeWith (fun n hn => ?_)
    (noStopIteration_exhaust rfl _)
  have hten : n < 10 := hn.trans_le (NexusClientRetryPolicy.attempts_le _ _)
  have hstop := noStopIteration_check (h.checked hok hcallback n hten fun m hm =>
    NexusClientRetryPolicy.retried_before hn hm)
  exact ⟨blocking_eq_self hstop, hstop⟩

theorem completions_eq :
    SyncHelpers.completeRun receiver algorithm requestId callback 10 none nexusClientRuntimeError =
      NexusReceiverAsyncClient.completeRun receiver algorithm requestId callback := by
  obtain ⟨hsubmission, hnoStop⟩ := h.submission_eq (submissionMessage algorithm requestId)
  rw [asyncCompletion_eq, syncCompletion_eq, hsubmission]
  have hlast (a : Option Unit) (ha : (ackAwaitPolicy.execute receiver.submit
      (submissionMessage algorithm requestId)).outcome = .ok a) := by
    rw [h.execute_submit_eq] at ha
    exact h.completeRun_last _ ha
  cases hsubmitted : (ackAwaitPolicy.execute receiver.submit
      (submissionMessage algorithm requestId)).outcome with
  | error e =>
    rw [completionOf_of_raised hsubmitted, completionOf_of_raised hsubmitted,
      coroutine_eq_self hnoStop]
  | ok a =>
    have hok := hlast a hsubmitted
    by_cases hcallback : ∀ e, callback ≠ some (.error e)
    · obtain ⟨hsame, hchecked⟩ := h.acknowledgement_eq hok hcallback
        (acknowledgementMessage algorithm requestId)
      rw [hsame, coroutine_eq_self]
      rwa [outcome_of_callback hsubmitted hcallback]
    · obtain ⟨e, rfl⟩ : ∃ e, callback = some (.error e) := by simpa using hcallback
      rw [completionOf_of_callback_raised, completionOf_of_callback_raised, coroutine_eq_self]
      intro e' he'
      rw [Traced.outcome_bind, hsubmitted] at he'
      cases he'
      exact h.callback_error hok e rfl

end CompletesAlike

/-! ### What two completions that are alike have in common -/

theorem noStopIteration_coroutine {β : Type} (x : Traced ReceiverCall PyExc β) :
    NoStopIteration (coroutine x).outcome := by
  intro e he
  obtain ⟨e', -, rfl⟩ := Traced.mapError_eq_error_iff.mp he
  exact PyExc.not_stopIteration_replaced _ _

/-- The exception of a retried call, unless the policy is exhausted. -/
theorem noStopIteration_last {p : NexusClientRetryPolicy}
    {x : Nat → Traced ReceiverCall PyExc (Option Unit)} {n : Nat}
    (hattempts : p.attempts x = n + 1) (hn : n + 1 < p.retryCount.toNat) (message : String)
    (hstop : NoStopIteration (p.execute x message).outcome) : NoStopIteration (x n).outcome := by
  rcases p.executeWith_cases PyExc.plain_during x message with
    ⟨k, -, hcount, -, -, hout⟩ | ⟨hcount, -⟩
  · obtain rfl : k = n := Nat.succ.inj (hcount.symm.trans hattempts)
    intro e he
    rw [he] at hout
    obtain ⟨e', he', hplain⟩ := Traced.mapError_eq_error_iff.mp hout
    rw [← PyExc.isInstance_plain, ← hplain, PyExc.isInstance_plain]
    exact hstop e' he'
  · exact absurd (hcount.symm.trans hattempts) hn.ne'

/-- What the wait for the commit gets for a check that raises a `StopIteration`. -/
theorem checking_stopIteration {n : Nat} {e : PyExc}
    (he : (checkRunCommitted receiver n).outcome = .error e)
    (hstop : e.isInstance stopIteration = true) :
    (checking receiver n).outcome = .error e.throughFuture ∧
      e.throughFuture.cls = runtimeError ∧
      (checking receiver n).retried ackAwaitPolicy.retries = false := by
  have hout : (checking receiver n).outcome = .error e.throughFuture := by
    rw [checking, coroutine_runBlocking, runBlocking, Traced.outcome_mapError, he]
    rfl
  have hcls : e.throughFuture.cls = runtimeError := PyExc.cls_replaceStopIteration hstop
  refine ⟨hout, hcls, ?_⟩
  unfold Traced.retried
  simp only [hout, retries_ackAwaitPolicy, PyExc.isInstance, hcls]
  rfl

/-- If the wait for the commit makes the same checks and ends alike over coroutines, no check raises
a `StopIteration`. -/
theorem checks_noStopIteration {message : String}
    (hattempts : ackAwaitPolicy.attempts (checkRunCommitted receiver) =
      ackAwaitPolicy.attempts (checking receiver))
    (hsame : (ackAwaitPolicy.execute (checkRunCommitted receiver) message).outcome =
      leaving (leaving
        (ackAwaitPolicy.executeWith awaitedDuring (checking receiver) message).outcome))
    {n : Nat} (hn : n < ackAwaitPolicy.attempts (checkRunCommitted receiver)) :
    NoStopIteration (checkRunCommitted receiver n).outcome := by
  intro e he
  by_contra hstop
  obtain ⟨hout, hcls, hretried⟩ := checking_stopIteration he (by simpa using hstop)
  have hlast : ackAwaitPolicy.attempts (checking receiver) = n + 1 := by
    by_contra hmore
    have hbefore := NexusClientRetryPolicy.retried_before
      (show n + 1 < ackAwaitPolicy.attempts (checking receiver) by omega) (Nat.lt_succ_self n)
    rw [hretried] at hbefore
    cases hbefore
  -- the exception over coroutines is that of check `n`, as it comes through the future
  obtain ⟨y, hy, hycls⟩ : ∃ y, (ackAwaitPolicy.executeWith awaitedDuring (checking receiver)
      message).outcome = .error y ∧ y.leavingCoroutine.cls = runtimeError := by
    rcases ackAwaitPolicy.executeWith_cases plainLeaving_awaitedDuring (checking receiver) message
      with ⟨k, -, hcount, -, -, hview⟩ | ⟨hcount, hall, -⟩
    · obtain rfl : k = n := Nat.succ.inj (hcount.symm.trans hlast)
      rw [hout] at hview
      obtain ⟨y, hy, hplain⟩ := Traced.mapError_eq_error_iff.mp hview
      refine ⟨y, hy, ?_⟩
      have hclass := congrArg PyExc.cls hplain
      unfold plainLeaving at hclass
      rwa [PyExc.cls_plain, PyExc.cls_plain, PyExc.leavingCoroutine_throughFuture, hcls] at hclass
    · have hn' := hall n (by omega)
      rw [hretried] at hn'
      cases hn'
  rw [hy] at hsame
  have hleaves : y.leavingCoroutine.leavingCoroutine = y.leavingCoroutine :=
    PyExc.replaceStopIteration_of_not (PyExc.not_stopIteration_replaced _ _)
  have hsync : (ackAwaitPolicy.executeWith PyExc.during (checkRunCommitted receiver)
      message).outcome = .error y.leavingCoroutine :=
    hsame.trans (congrArg Except.error hleaves)
  rcases ackAwaitPolicy.executeWith_cases PyExc.plain_during (checkRunCommitted receiver) message
    with ⟨k, -, hcount, -, -, hview⟩ | ⟨-, -, hview⟩
  · obtain rfl : k = n := Nat.succ.inj (hcount.symm.trans (hattempts.trans hlast))
    rw [he, hsync] at hview
    have hclass := congrArg PyExc.cls (Except.error.inj hview)
    rw [PyExc.cls_plain, PyExc.cls_plain, hycls] at hclass
    rw [PyExc.isInstance, ← hclass] at hstop
    exact hstop rfl
  · rw [hsync] at hview
    have hclass := congrArg PyExc.cls (Except.error.inj hview)
    rw [PyExc.cls_plain, PyExc.cls_plain, hycls] at hclass
    have hne : runtimeError ≠ nexusClientRuntimeError := by decide
    exact hne hclass

section Events

variable (receiver) (message : String)

theorem events_syncSubmission : (ackAwaitPolicy.execute receiver.submit message).events =
    receiver.submissions (ackAwaitPolicy.attempts receiver.submit) :=
  ackAwaitPolicy.events_executeWith_eq _ message fun _ => rfl

theorem events_syncChecks : (ackAwaitPolicy.execute (checkRunCommitted receiver) message).events =
    receiver.checks (ackAwaitPolicy.attempts (checkRunCommitted receiver)) :=
  ackAwaitPolicy.events_executeWith_eq _ message (events_checkRunCommitted receiver)

theorem events_asyncSubmission :
    (coroutine (NexusClientRetryPolicy.default.executeWith awaitedDuring (submitting receiver)
        message)).events =
      receiver.submissions (NexusClientRetryPolicy.default.attempts (submitting receiver)) :=
  NexusClientRetryPolicy.default.events_executeWith_eq _ message (events_submitting receiver)

theorem events_asyncChecks :
    (coroutine (ackAwaitPolicy.executeWith awaitedDuring (checking receiver) message)).events =
      receiver.checks (ackAwaitPolicy.attempts (checking receiver)) :=
  ackAwaitPolicy.events_executeWith_eq _ message (events_checking receiver)

end Events

section Converse

variable (heq : SyncHelpers.completeRun receiver algorithm requestId callback 10 none
    nexusClientRuntimeError =
  NexusReceiverAsyncClient.completeRun receiver algorithm requestId callback)
include heq

theorem sync_noStopIteration : NoStopIteration (completionOf
    (ackAwaitPolicy.execute receiver.submit (submissionMessage algorithm requestId))
    (ackAwaitPolicy.execute (checkRunCommitted receiver)
      (acknowledgementMessage algorithm requestId)) callback).outcome := by
  rw [← syncCompletion_eq, heq, asyncCompletion_eq]
  exact noStopIteration_coroutine _

/-- Both make the same number of submissions. -/
theorem submissions_eq : ackAwaitPolicy.attempts receiver.submit =
    NexusClientRetryPolicy.default.attempts (submitting receiver) := by
  have hcount := congrArg (fun x => x.events.countP ReceiverCall.isSubmission) heq
  rw [asyncCompletion_eq, syncCompletion_eq] at hcount
  have hsync := countP_isSubmission callback
    (events_syncSubmission receiver (submissionMessage algorithm requestId))
    (events_syncChecks receiver (acknowledgementMessage algorithm requestId))
  have hasync := countP_isSubmission callback
    (events_asyncSubmission receiver (submissionMessage algorithm requestId))
    (events_asyncChecks receiver (acknowledgementMessage algorithm requestId))
  exact hsync.symm.trans (hcount.trans hasync)

/-- The last submission, and those before it. -/
theorem exists_last : ∃ last < 3, ackAwaitPolicy.attempts receiver.submit = last + 1 ∧
    (∀ n < last, ∃ e, receiver.completeRun n = .error e ∧ e.isInstance networkError = true ∧
      e.isInstance stopIteration = false) := by
  have hsame := submissions_eq algorithm requestId heq
  have hpos : 0 < NexusClientRetryPolicy.default.attempts (submitting receiver) :=
    NexusClientRetryPolicy.lt_attempts (by decide) (by simp)
  obtain ⟨last, hlast⟩ := Nat.exists_eq_add_one_of_ne_zero hpos.ne'
  have hle := NexusClientRetryPolicy.default.attempts_le (submitting receiver)
  rw [hlast] at hle
  refine ⟨last, hle, hsame.trans hlast, fun n hn => ?_⟩
  obtain ⟨e, he, hretries⟩ := NexusClientRetryPolicy.retried_of_lt
    (show n + 1 < NexusClientRetryPolicy.default.attempts (submitting receiver) by omega)
  obtain ⟨hraised, hstop⟩ := submitting_retried he hretries
  exact ⟨e, submit_eq_error hraised, retries_default e ▸ hretries, hstop⟩

/-- If the submission and the callback return, the checks and their end are the same. -/
theorem checks_eq {last : Nat} (hlast : ackAwaitPolicy.attempts receiver.submit = last + 1)
    (hok : receiver.completeRun last = .ok ()) (hcallback : ∀ e, callback ≠ some (.error e)) :
    ackAwaitPolicy.attempts (checkRunCommitted receiver) =
        ackAwaitPolicy.attempts (checking receiver) ∧
      (ackAwaitPolicy.execute (checkRunCommitted receiver)
          (acknowledgementMessage algorithm requestId)).outcome =
        leaving (leaving (ackAwaitPolicy.executeWith awaitedDuring (checking receiver)
          (acknowledgementMessage algorithm requestId)).outcome) := by
  have hsubmit : (receiver.submit last).outcome = .ok none := by
    rw [SyncReceiver.submit, hok]
    rfl
  have hsync : (ackAwaitPolicy.execute receiver.submit
      (submissionMessage algorithm requestId)).outcome = .ok none :=
    NexusClientRetryPolicy.execute_of_ok (show last < _ by omega) hsubmit
  have hasync : (coroutine (NexusClientRetryPolicy.default.executeWith awaitedDuring
      (submitting receiver) (submissionMessage algorithm requestId))).outcome = .ok none := by
    refine Traced.mapError_eq_ok_iff.mpr (NexusClientRetryPolicy.execute_of_ok ?_
      (outcome_blocking_eq_ok.mpr hsubmit))
    rw [← submissions_eq algorithm requestId heq, hlast]
    exact Nat.lt_succ_self last
  have houtcome := congrArg Traced.outcome heq
  have hcount := congrArg (fun x => x.events.countP ReceiverCall.isCheck) heq
  rw [asyncCompletion_eq, syncCompletion_eq] at houtcome hcount
  constructor
  · have hchecks := countP_isCheck hsync (events_syncSubmission receiver _)
      (events_syncChecks receiver (acknowledgementMessage algorithm requestId)) hcallback
    have hchecks' := countP_isCheck hasync (events_asyncSubmission receiver _)
      (events_asyncChecks receiver (acknowledgementMessage algorithm requestId)) hcallback
    exact hchecks.symm.trans (hcount.trans hchecks')
  · rw [outcome_of_callback hsync hcallback] at houtcome
    refine houtcome.trans (congrArg leaving ?_)
    exact outcome_of_callback hasync hcallback

theorem exists_completesAlike : ∃ last, CompletesAlike receiver callback last := by
  obtain ⟨last, hthree, hlast, hrefused⟩ := exists_last algorithm requestId heq
  have htotal := sync_noStopIteration algorithm requestId heq
  rw [outcome_completionOf] at htotal
  have hsubmitted (hok : receiver.completeRun last = .ok ()) : (ackAwaitPolicy.execute
      receiver.submit (submissionMessage algorithm requestId)).outcome = .ok none := by
    refine NexusClientRetryPolicy.execute_of_ok (show last < _ by omega) ?_
    rw [SyncReceiver.submit, hok]
    rfl
  refine ⟨last, hthree, hrefused, fun e he => ?_, fun hok e he => ?_, fun hok hcallback n hn hb => ?_⟩
  · have hout : (receiver.submit last).outcome = .error e := by
      rw [SyncReceiver.submit, he]
      rfl
    have hretries := NexusClientRetryPolicy.not_retried_of_last hlast
      (show last + 1 < 10 by omega) hout
    rw [retries_ackAwaitPolicy] at hretries
    obtain ⟨hnetwork, hcommit⟩ := Bool.or_eq_false_iff.mp hretries
    refine ⟨hnetwork, hcommit, noStopIteration_last hlast (show last + 1 < 10 by omega)
      (submissionMessage algorithm requestId) (fun e' he' => ?_) e hout⟩
    rw [he'] at htotal
    exact htotal e' rfl
  · rw [hsubmitted hok, he] at htotal
    exact htotal e rfl
  · obtain ⟨hattempts, hsame⟩ := checks_eq algorithm requestId heq hlast hok hcallback
    have hmade := NexusClientRetryPolicy.lt_attempts (p := ackAwaitPolicy) hn hb
    intro e he
    refine checks_noStopIteration hattempts hsame hmade e ?_
    rw [checkRunCommitted, he]
    rfl

end Converse

end Alike

end NexusSdk.Client
