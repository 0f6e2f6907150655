import NexusSdk.Client.Models
import NexusSdk.Exceptions
import NexusSdk.Lib.Retry

/-! The retry policies of the clients.  The sync and the async policy issue the next attempt from the
handler of the last one's exception; both are the bounded retry of `Lib.Retry`.  The attempts of the
async policy are coroutines, which no `StopIteration` leaves. -/

namespace NexusSdk.Client

open Lib

/-- Raised for a result that is not committed. -/
def nexusReceiverResultNotCommittedError : PyClass :=
  .extend ("nexus_client_sdk.clients.fault_tolerance.models._models." ++
    "NexusReceiverResultNotCommittedError") [baseException]

/-- Enables retries for requests whose scheduling failed. -/
def nexusSchedulingError : PyClass :=
  .extend "nexus_client_sdk.clients.fault_tolerance.models._models.NexusSchedulingError"
    [baseException]

def nexusClientRuntimeError : PyClass :=
  .extend "nexus_client_sdk.clients.fault_tolerance.models._models.NexusClientRuntimeError"
    [fatalNexusError]

structure NexusClientRetryPolicy where
  retryCount : Int
  errorTypes : List PyClass
  retryExhaustErrorType : Option PyClass

namespace NexusClientRetryPolicy

/-- Default retry policy. -/
def default : NexusClientRetryPolicy where
  retryCount := 3
  errorTypes := [networkError]
  retryExhaustErrorType := some nexusClientRuntimeError

def retries (p : NexusClientRetryPolicy) (e : PyExc) : Bool := p.errorTypes.any e.isInstance

def handleRetryExhaust {α : Type} (p : NexusClientRetryPolicy) (message : String) :
    Except PyExc (Option α) :=
  match p.retryExhaustErrorType with
  | some cls => .error (.new cls message)
  | none => .ok none

/-- Retry a runnable, of which `runnable n` is what its call number `n` does; an exception of a later
call that comes up while `ex` is handled is `during e ex`. -/
def executeWith {E α : Type} (p : NexusClientRetryPolicy) (during : PyExc → PyExc → PyExc)
    (runnable : Nat → Traced E PyExc (Option α)) (message : String) : Traced E PyExc (Option α) :=
  .retry p.retries during (p.handleRetryExhaust message) runnable p.retryCount.toNat 0

/-- Execute a runnable using the retry policy. -/
def execute {E α : Type} (p : NexusClientRetryPolicy) (runnable : Nat → Traced E PyExc (Option α))
    (message : String) : Traced E PyExc (Option α) :=
  p.executeWith PyExc.during runnable message

/-! ### `NexusRetryPolicyBuilder`, by the fields of the policy that it builds -/

def withRetries (p : NexusClientRetryPolicy) (count : Int) : NexusClientRetryPolicy :=
  { p with retryCount := count }

def withErrorTypes (p : NexusClientRetryPolicy) (errors : List PyClass) : NexusClientRetryPolicy :=
  { p with errorTypes := p.errorTypes ++ errors }

def withRetryExhaustErrorType (p : NexusClientRetryPolicy) (error : Option PyClass) :
    NexusClientRetryPolicy :=
  { p with retryExhaustErrorType := error }

end NexusClientRetryPolicy

variable {E α : Type}

/-! ### `NexusClientSyncRetryPolicy` -/

/-- `_execute`. -/
def NexusClientSyncRetryPolicy.executeFrom (p : NexusClientRetryPolicy)
    (runnable : Nat → Traced E PyExc (Option α)) (message : String) (tryNumber : Nat) :
    Traced E PyExc (Option α) :=
  if p.retryCount ≤ tryNumber then .of (p.handleRetryExhaust message)
  else (runnable tryNumber).handle fun ex =>
    if p.retries ex then
      -- what the next attempts raise is raised while `ex` is handled
      let next := executeFrom p runnable message (tryNumber + 1)
      ⟨next.events, next.outcome.mapError fun e => e.during ex⟩
    else .raise ex
termination_by (p.retryCount - tryNumber).toNat

def NexusClientSyncRetryPolicy.execute (p : NexusClientRetryPolicy)
    (runnable : Nat → Traced E PyExc (Option α)) (message : String) :
    Traced E PyExc (Option α) :=
  executeFrom p runnable message 0

/-! ### `NexusClientAsyncRetryPolicy` -/

/-- The coroutine with the given body, awaited. -/
def coroutine (body : Traced E PyExc α) : Traced E PyExc α :=
  body.mapError PyExc.leavingCoroutine

/-- The body of `run_blocking`: the method runs in a thread, and its end comes through a future. -/
def runBlocking (method : Traced E PyExc α) : Traced E PyExc α :=
  method.mapError PyExc.throughFuture

/-- What a call of the runnable returns: a value, or a coroutine with its body. -/
inductive Produced (E α : Type)
  | value (result : Option α)
  | coroutine (body : Traced E PyExc (Option α))

/-- A coroutine is awaited. -/
def Produced.await : Produced E α → Traced E PyExc (Option α)
  | value result => .of (.ok result)
  | coroutine body => Client.coroutine body

/-- The body of the coroutine `_execute`. -/
def NexusClientAsyncRetryPolicy.executeFrom (p : NexusClientRetryPolicy)
    (runnable : Nat → Traced E PyExc (Produced E α)) (message : String) (tryNumber : Nat) :
    Traced E PyExc (Option α) :=
  if p.retryCount ≤ tryNumber then .of (p.handleRetryExhaust message)
  else (runnable tryNumber >>= Produced.await).handle fun ex =>
    if p.retries ex then
      -- raised while `ex` is handled, and leaving the coroutine of the next attempt
      let next := executeFrom p runnable message (tryNumber + 1)
      ⟨next.events, next.outcome.mapError fun e => (e.during ex).leavingCoroutine⟩
    else .raise ex
termination_by (p.retryCount - tryNumber).toNat

def NexusClientAsyncRetryPolicy.execute (p : NexusClientRetryPolicy)
    (runnable : Nat → Traced E PyExc (Produced E α)) (message : String) :
    Traced E PyExc (Option α) :=
  coroutine (executeFrom p runnable message 0)

/-! ### The bounded retry -/

theorem NexusClientSyncRetryPolicy.executeFrom_eq (p : NexusClientRetryPolicy)
    (runnable : Nat → Traced E PyExc (Option α)) (message : String) (tryNumber : Nat) :
    executeFrom p runnable message tryNumber =
      .retry p.retries PyExc.during (p.handleRetryExhaust message) runnable
        (p.retryCount - tryNumber).toNat tryNumber := by
  induction h : (p.retryCount - tryNumber).toNat generalizing tryNumber with
  | zero => rw [executeFrom, if_pos (by omega), Traced.retry]
  | succ left ih =>
    rw [executeFrom, if_neg (by omega), Traced.retry, ih (tryNumber + 1) (by omega)]

/-- What an exception raised while another one is handled is when it leaves its coroutine. -/
def awaitedDuring (e ex : PyExc) : PyExc := (e.during ex).leavingCoroutine

theorem NexusClientAsyncRetryPolicy.executeFrom_eq (p : NexusClientRetryPolicy)
    (runnable : Nat → Traced E PyExc (Produced E α)) (message : String) (tryNumber : Nat) :
    executeFrom p runnable message tryNumber =
      .retry p.retries awaitedDuring (p.handleRetryExhaust message)
        (fun n => runnable n >>= Produced.await) (p.retryCount - tryNumber).toNat tryNumber := by
  induction h : (p.retryCount - tryNumber).toNat generalizing tryNumber with
  | zero => rw [executeFrom, if_pos (by omega), Traced.retry]
  | succ left ih =>
    rw [executeFrom, if_neg (by omega), Traced.retry, ih (tryNumber + 1) (by omega)]
    rfl

theorem NexusClientSyncRetryPolicy.execute_eq (p : NexusClientRetryPolicy)
    (runnable : Nat → Traced E PyExc (Option α)) (message : String) :
    execute p runnable message = p.execute runnable message := by
  rw [execute, executeFrom_eq]
  simp only [Int.natCast_zero, Int.sub_zero]
  rfl

theorem NexusClientAsyncRetryPolicy.execute_eq (p : NexusClientRetryPolicy)
    (runnable : Nat → Traced E PyExc (Produced E α)) (message : String) :
    execute p runnable message = coroutine
      (p.executeWith awaitedDuring (fun n => runnable n >>= Produced.await) message) := by
  rw [execute, executeFrom_eq]
  simp only [Int.natCast_zero, Int.sub_zero]
  rfl

namespace NexusClientRetryPolicy

variable {p : NexusClientRetryPolicy} {during : PyExc → PyExc → PyExc}
  {runnable : Nat → Traced E PyExc (Option α)} {message : String}

/-- How often the runnable is called. -/
def attempts (p : NexusClientRetryPolicy) (runnable : Nat → Traced E PyExc (Option α)) : Nat :=
  Traced.attempts p.retries runnable p.retryCount.toNat 0

theorem attempts_le (p : NexusClientRetryPolicy) (runnable : Nat → Traced E PyExc (Option α)) :
    p.attempts runnable ≤ p.retryCount.toNat :=
  Traced.attempts_le p.retryCount.toNat 0

theorem events_executeWith :
    (p.executeWith during runnable message).events =
      (List.range (p.attempts runnable)).flatMap fun n => (runnable n).events := by
  rw [executeWith, Traced.events_retry, ← List.range_eq_range', attempts]

/-- A runnable with one event for each call. -/
theorem events_executeWith_eq (p : NexusClientRetryPolicy) (during : PyExc → PyExc → PyExc)
    (message : String) {event : Nat → E} (h : ∀ n, (runnable n).events = [event n]) :
    (p.executeWith during runnable message).events =
      (List.range (p.attempts runnable)).map event := by
  rw [events_executeWith]
  simp only [h]
  exact List.flatMap_pure_eq_map event _

/-- The events of the runnable are all that happens. -/
theorem mem_events_execute {e : E} (he : e ∈ (p.executeWith during runnable message).events) :
    ∃ n, e ∈ (runnable n).events := by
  rw [events_executeWith] at he
  obtain ⟨n, -, hn⟩ := List.mem_flatMap.mp he
  exact ⟨n, hn⟩

/-- The calls before one that is made are retried. -/
theorem retried_before {n m : Nat} (h : n < p.attempts runnable) (hm : m < n) :
    (runnable m).retried p.retries = true := by
  have hretried := ((Traced.succ_lt_attempts_iff _ 0 m).mp (Nat.lt_of_le_of_lt hm h)).2 m le_rfl
  rwa [Nat.zero_add] at hretried

/-- All calls but the last end with an error that is retried. -/
theorem retried_of_lt {n : Nat} (h : n + 1 < p.attempts runnable) :
    ∃ e, (runnable n).outcome = .error e ∧ p.retries e = true :=
  Traced.retried_iff.mp (retried_before h (Nat.lt_succ_self n))

/-- A call within the bound is made if all before it are retried. -/
theorem lt_attempts {n : Nat} (hn : n < p.retryCount.toNat)
    (h : ∀ m < n, (runnable m).retried p.retries = true) : n < p.attempts runnable := by
  cases n with
  | zero => exact (Traced.attempts_pos_iff _ 0).mpr hn
  | succ n =>
    refine (Traced.succ_lt_attempts_iff _ 0 n).mpr ⟨hn, fun m hm => ?_⟩
    rw [Nat.zero_add]
    exact h m (Nat.lt_succ_of_le hm)

theorem execute_of_ok {n : Nat} {a : Option α} (hn : n < p.attempts runnable)
    (hok : (runnable n).outcome = .ok a) :
    (p.executeWith during runnable message).outcome = .ok a :=
  (Traced.retry_of_ok hn (by rwa [Nat.zero_add])).2

/-- As far as `view` shows, the outcome is that of the first call that is not retried, or of the
exhaustion. -/
theorem executeWith_cases {δ : Type} {view : PyExc → δ}
    (hview : ∀ e ex, view (during e ex) = view e) (p : NexusClientRetryPolicy)
    (runnable : Nat → Traced E PyExc (Option α)) (message : String) :
    (∃ k < p.retryCount.toNat, p.attempts runnable = k + 1 ∧
      (∀ n < k, (runnable n).retried p.retries = true) ∧
      (runnable k).retried p.retries = false ∧
      (p.executeWith during runnable message).outcome.mapError view =
        (runnable k).outcome.mapError view) ∨
    p.attempts runnable = p.retryCount.toNat ∧
      (∀ n < p.retryCount.toNat, (runnable n).retried p.retries = true) ∧
      (p.executeWith during runnable message).outcome.mapError view =
        (p.handleRetryExhaust message).mapError view := by
  have hcases := Traced.retry_cases p.retries (p.handleRetryExhaust message) runnable hview
    p.retryCount.toNat 0
  simp only [Nat.zero_add] at hcases
  rcases hcases with ⟨k, hk, hbefore, hlast, hcount, hout⟩ | ⟨hall, hcount, hout⟩
  · exact .inl ⟨k, hk, hcount, hbefore, hlast, hout⟩
  · exact .inr ⟨hcount, hall, hout⟩

/-- If exhaustion raises, a value comes from the last call of the runnable. -/
theorem last_of_execute (hexhaust : p.retryExhaustErrorType.isSome = true) {a : Option α}
    (h : (p.executeWith during runnable message).outcome = .ok a) :
    ∃ last, p.attempts runnable = last + 1 ∧ (runnable last).outcome = .ok a := by
  rcases Traced.retry_eq_ok h with ⟨k, -, hcount, hout⟩ | hout
  · rw [Nat.zero_add] at hout
    exact ⟨k, hcount, hout⟩
  · obtain ⟨cls, hcls⟩ := Option.isSome_iff_exists.mp hexhaust
    simp [handleRetryExhaust, hcls] at hout

end NexusClientRetryPolicy

/-- An outcome as it leaves a coroutine. -/
def leaving {β : Type} (outcome : Except PyExc β) : Except PyExc β :=
  outcome.mapError PyExc.leavingCoroutine

/-- The outcome is no `StopIteration`. -/
def NoStopIteration {β : Type} (outcome : Except PyExc β) : Prop :=
  ∀ e, outcome = .error e → e.isInstance stopIteration = false

theorem awaitedDuring_of_not {e : PyExc} (h : e.isInstance stopIteration = false) (ex : PyExc) :
    awaitedDuring e ex = e.during ex ∧ (e.during ex).isInstance stopIteration = false :=
  ⟨PyExc.replaceStopIteration_of_not h, h⟩

theorem coroutine_eq_self {β : Type} {x : Traced E PyExc β} (h : NoStopIteration x.outcome) :
    coroutine x = x :=
  Traced.mapError_eq_self fun e he => PyExc.replaceStopIteration_of_not (h e he)

/-! ### Blocking methods -/

section Blocking

variable {β : Type} {x : Traced E PyExc β}

theorem coroutine_runBlocking (x : Traced E PyExc β) :
    coroutine (runBlocking x) = runBlocking x := by
  obtain ⟨l, e | b⟩ := x
  · exact congrArg (fun e => Traced.mk l (.error e)) e.leavingCoroutine_throughFuture
  · rfl

theorem outcome_blocking_eq_ok {b : β} :
    (coroutine (runBlocking x)).outcome = .ok b ↔ x.outcome = .ok b :=
  Traced.mapError_eq_ok_iff.trans Traced.mapError_eq_ok_iff

/-- What a class catches that is not above `RuntimeError` is the method's own exception. -/
theorem error_of_blocking {e : PyExc} {c : PyClass} (hc : runtimeError.isSubclass c = false)
    (h : (coroutine (runBlocking x)).outcome = .error e) (he : e.isInstance c = true) :
    x.outcome = .error e ∧ e.isInstance stopIteration = false := by
  rw [coroutine_runBlocking] at h
  obtain ⟨e', hout, rfl⟩ := Traced.mapError_eq_error_iff.mp h
  obtain ⟨hstop, -⟩ := PyExc.isInstance_replaced hc he
  rw [show e'.throughFuture = e' from PyExc.replaceStopIteration_of_not hstop]
  exact ⟨hout, hstop⟩

theorem blocking_eq_self (h : NoStopIteration x.outcome) : coroutine (runBlocking x) = x := by
  rw [coroutine_runBlocking]
  exact Traced.mapError_eq_self fun e he => PyExc.replaceStopIteration_of_not (h e he)

end Blocking

/-- Where no `StopIteration` comes up, it makes no difference that the attempts are coroutines. -/
theorem NexusClientRetryPolicy.coroutine_executeWith {p : NexusClientRetryPolicy}
    {x y : Nat → Traced E PyExc (Option α)} {message : String}
    (hattempts : ∀ n < p.attempts x, y n = x n ∧ NoStopIteration (x n).outcome)
    (hexhaust : NoStopIteration (p.handleRetryExhaust message : Except PyExc (Option α))) :
    coroutine (p.executeWith awaitedDuring y message) = p.execute x message ∧
      NoStopIteration (p.execute x message).outcome := by
  have hsame : ∀ i < Traced.attempts p.retries x p.retryCount.toNat 0,
      y (0 + i) = x (0 + i) ∧
        ∀ e, (x (0 + i)).outcome = .error e → e.isInstance stopIteration = false := by
    intro i hi
    rw [Nat.zero_add]
    exact hattempts i hi
  obtain ⟨heq, herror⟩ := Traced.retry_congr_of_attempts
    (P := fun e : PyExc => e.isInstance stopIteration = false)
    (fun e ex he => awaitedDuring_of_not he ex) hexhaust hsame
  rw [executeWith, heq]
  exact ⟨coroutine_eq_self herror, herror⟩

theorem retries_default (e : PyExc) :
    NexusClientRetryPolicy.default.retries e = e.isInstance networkError := by
  simp [NexusClientRetryPolicy.default, NexusClientRetryPolicy.retries]

/-! ### The specification of both -/

namespace NexusClientRetryPolicy

/-- Whether the outcome is a retryable exception. -/
def retryable (p : NexusClientRetryPolicy) : Except PyExc (Option α) → Bool
  | .ok _ => false
  | .error e => p.retries e

/-- The number of the first call within the bound that does not end with a retryable exception. -/
def lastCall (p : NexusClientRetryPolicy) (outcome : Nat → Except PyExc (Option α)) :
    Option Nat :=
  (List.range p.retryCount.toNat).find? fun n => !p.retryable (outcome n)

def callCount (p : NexusClientRetryPolicy) (outcome : Nat → Except PyExc (Option α)) : Nat :=
  match p.lastCall outcome with
  | some n => n + 1
  | none => p.retryCount.toNat

def finalOutcome (p : NexusClientRetryPolicy) (outcome : Nat → Except PyExc (Option α))
    (message : String) : Except PyExc (Option α) :=
  match p.lastCall outcome with
  | some n => outcome n
  | none => p.handleRetryExhaust message

theorem callCount_le (p : NexusClientRetryPolicy) (outcome : Nat → Except PyExc (Option α)) :
    p.callCount outcome ≤ p.retryCount.toNat := by
  unfold callCount
  cases h : p.lastCall outcome with
  | some n => exact List.mem_range.mp (List.mem_of_find?_eq_some h)
  | none => exact le_rfl

theorem lastCall_eq_some_iff {p : NexusClientRetryPolicy}
    {outcome : Nat → Except PyExc (Option α)} {n : Nat} :
    p.lastCall outcome = some n ↔
      n < p.retryCount.toNat ∧ p.retryable (outcome n) = false ∧
        ∀ m < n, p.retryable (outcome m) = true := by
  simp only [lastCall, List.find?_range_eq_some, Bool.not_eq_true', Bool.not_not, List.mem_range]
  tauto

/-- The runnable whose calls end as given; its events are the numbers of its calls. -/
def numbered (outcome : Nat → Except PyExc (Option α)) (n : Nat) :
    Traced Nat PyExc (Option α) :=
  ⟨[n], outcome n⟩

theorem retried_numbered (p : NexusClientRetryPolicy) (outcome : Nat → Except PyExc (Option α))
    (n : Nat) : (numbered outcome n).retried p.retries = p.retryable (outcome n) := by
  unfold Traced.retried retryable numbered
  cases outcome n <;> rfl

/-- The calls and the outcome of the retried runnable, for a runnable whose calls are numbered, as
far as the contexts of exceptions do not show. -/
theorem executeWith_numbered (p : NexusClientRetryPolicy) {during : PyExc → PyExc → PyExc}
    {δ : Type} (view : PyExc → δ) (hview : ∀ e ex, view (during e ex) = view e)
    (outcome : Nat → Except PyExc (Option α)) (message : String) :
    (p.executeWith during (numbered outcome) message).events = List.range (p.callCount outcome) ∧
      (p.executeWith during (numbered outcome) message).outcome.mapError view =
        (p.finalOutcome outcome message).mapError view := by
  have hcount : p.attempts (numbered outcome) = p.callCount outcome ∧
      (p.executeWith during (numbered outcome) message).outcome.mapError view =
        (p.finalOutcome outcome message).mapError view := by
    unfold callCount finalOutcome
    have hcases := p.executeWith_cases hview (numbered outcome) message
    simp only [retried_numbered] at hcases
    rcases hcases with ⟨k, hk, hcount, hbefore, hlast, hout⟩ | ⟨hcount, hall, hout⟩
    · rw [lastCall_eq_some_iff.mpr ⟨hk, hlast, hbefore⟩]
      exact ⟨hcount, hout⟩
    · have hnone : p.lastCall outcome = none := by
        refine Option.eq_none_iff_forall_ne_some.mpr fun n hn => ?_
        obtain ⟨hlt, hfinal, -⟩ := lastCall_eq_some_iff.mp hn
        simp [hall n hlt] at hfinal
      rw [hnone]
      exact ⟨hcount, hout⟩
  refine ⟨?_, hcount.2⟩
  rw [p.events_executeWith_eq _ _ fun _ => rfl, hcount.1]
  exact List.map_id _

/-- The calls that are made. -/
theorem attempts_numbered (p : NexusClientRetryPolicy) (outcome : Nat → Except PyExc (Option α)) :
    p.attempts (numbered outcome) = p.callCount outcome := by
  have hevents := (p.executeWith_numbered PyExc.bare PyExc.bare_during outcome "").1
  rw [p.events_executeWith_eq _ _ fun _ => rfl] at hevents
  have hlength := congrArg List.length hevents
  rwa [List.length_map, List.length_range, List.length_range] at hlength

end NexusClientRetryPolicy

theorem mapError_mapError {ε ε' ε'' β : Type} (f : ε → ε') (g : ε' → ε'') (x : Except ε β) :
    (x.mapError f).mapError g = x.mapError fun e => g (f e) := by
  cases x <;> rfl

/-- What leaves a coroutine, without contexts. -/
def plainLeaving (e : PyExc) : PyExc := e.leavingCoroutine.plain

theorem plainLeaving_awaitedDuring (e ex : PyExc) :
    plainLeaving (awaitedDuring e ex) = plainLeaving e := by
  have hleft : (awaitedDuring e ex).leavingCoroutine = awaitedDuring e ex :=
    PyExc.replaceStopIteration_of_not (PyExc.not_stopIteration_replaced _ _)
  calc
    (awaitedDuring e ex).leavingCoroutine.plain = (e.during ex).leavingCoroutine.plain := by
      rw [hleft, awaitedDuring]
    _ = (e.during ex).plain.leavingCoroutine := PyExc.plain_replaceStopIteration _ _
    _ = e.leavingCoroutine.plain := (PyExc.plain_replaceStopIteration _ e).symm

open NexusClientRetryPolicy in
/-- The sync policy calls the runnable as specified, within the bound, and ends with the first outcome
that is not retryable, or as exhausted; so does the async policy over coroutines, for the outcomes
that leave them.  They do the same if no `StopIteration` comes up. -/
theorem policies_bounded_retry (p : NexusClientRetryPolicy)
    (outcome : Nat → Except PyExc (Option α)) (message : String) :
    let sync := NexusClientSyncRetryPolicy.execute p (numbered outcome) message
    let async := NexusClientAsyncRetryPolicy.execute p
      (fun n => .of (.ok (.coroutine (numbered outcome n)))) message
    let awaited n := leaving (outcome n)
    (sync.events = List.range (p.callCount outcome) ∧
      p.callCount outcome ≤ p.retryCount.toNat ∧
      sync.outcome.mapError PyExc.bare = (p.finalOutcome outcome message).mapError PyExc.bare) ∧
    (async.events = List.range (p.callCount awaited) ∧
      p.callCount awaited ≤ p.retryCount.toNat ∧
      async.outcome.mapError PyExc.plain =
        (leaving (p.finalOutcome awaited message)).mapError PyExc.plain) ∧
    ((∀ n < p.callCount outcome, NoStopIteration (outcome n)) →
      NoStopIteration (p.handleRetryExhaust message : Except PyExc (Option α)) → async = sync) := by
  intro sync async awaited
  have hsync : sync = p.execute (numbered outcome) message :=
    NexusClientSyncRetryPolicy.execute_eq _ _ _
  have hasync : async = coroutine (p.executeWith awaitedDuring (numbered awaited) message) :=
    NexusClientAsyncRetryPolicy.execute_eq _ _ _
  refine ⟨?_, ?_, fun houtcomes hexhaust => ?_⟩
  · obtain ⟨hevents, houtcome⟩ := p.executeWith_numbered PyExc.bare PyExc.bare_during
      outcome message
    exact hsync ▸ ⟨hevents, p.callCount_le outcome, houtcome⟩
  · obtain ⟨hevents, houtcome⟩ := p.executeWith_numbered plainLeaving
      plainLeaving_awaitedDuring awaited message
    rw [hasync]
    refine ⟨hevents, p.callCount_le awaited, ?_⟩
    rw [leaving, mapError_mapError]
    exact (mapError_mapError _ _ _).trans houtcome
  · -- the exceptions of the attempts that are made leave their coroutines as they are
    have hsame (n : Nat) (hn : n < p.attempts (numbered outcome)) :
        numbered awaited n = numbered outcome n ∧ NoStopIteration (outcome n) := by
      have hstop := houtcomes n (p.attempts_numbered outcome ▸ hn)
      exact ⟨coroutine_eq_self (x := numbered outcome n) hstop, hstop⟩
    rw [hsync, hasync]
    exact (coroutine_executeWith hsame hexhaust).1

/-- Two attempts fail with errors that are retried, and the third returns. -/
theorem policies_bounded_retry_thirdReturns :
    (NexusClientAsyncRetryPolicy.execute .default (fun n => .of (.ok (.coroutine
        (NexusClientRetryPolicy.numbered
          (fun n => if n < 2 then .error (.raised networkError "") else .ok (some n)) n)))) "") =
      NexusClientSyncRetryPolicy.execute .default (NexusClientRetryPolicy.numbered
        (fun n => if n < 2 then .error (.raised networkError "") else .ok (some n))) "" := by
  refine (policies_bounded_retry .default _ "").2.2 (fun n _ e he => ?_) fun e he => ?_
  · split at he <;> cases he
    rfl
  · cases he
    decide

/-- No attempt is made, and the exhaustion raises a `StopIteration`, which does not leave the
coroutine of the async policy. -/
theorem policies_differ_for_stopIteration :
    let p := (NexusClientRetryPolicy.default.withRetries 0).withRetryExhaustErrorType
      (some stopIteration)
    let outcome : Nat → Except PyExc (Option Nat) := fun n => .ok (some n)
    let sync := NexusClientSyncRetryPolicy.execute p (NexusClientRetryPolicy.numbered outcome) ""
    let async := NexusClientAsyncRetryPolicy.execute p
      (fun n => .of (.ok (.coroutine (NexusClientRetryPolicy.numbered outcome n)))) ""
    sync.outcome = .error (.raised stopIteration "") ∧
      async.outcome = .error (.raisedFrom runtimeError "coroutine raised StopIteration"
        (.raised stopIteration "")) ∧
      async ≠ sync := by
  intro p outcome sync async
  have hsync : sync.outcome = .error (.raised stopIteration "") := by
    simp only [sync, NexusClientSyncRetryPolicy.execute_eq]
    rfl
  have hasync : async.outcome = .error (.raisedFrom runtimeError "coroutine raised StopIteration"
      (.raised stopIteration "")) := by
    simp only [async, NexusClientAsyncRetryPolicy.execute_eq]
    rfl
  refine ⟨hsync, hasync, fun heq => ?_⟩
  rw [heq, hsync] at hasync
  cases hasync

/-- The exhaust error of the default policy would be retried if it were an outcome of a call. -/
example : (NexusClientRetryPolicy.default.withErrorTypes [fatalNexusError]).retries
    (.raised nexusClientRuntimeError "") = true := by decide

end NexusSdk.Client
