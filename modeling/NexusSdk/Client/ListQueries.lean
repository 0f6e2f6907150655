import NexusSdk.Client.Results
import NexusSdk.Client.RetryPolicy
import NexusSdk.Lib.Dict

/-! `get_run_results` and `await_tagged` of the async scheduler client.  They return generators, whose
bodies run when the caller iterates, after the retry policy has returned. -/

namespace NexusSdk.Client

open Lib

/-! ### The sync client -/

/-- A generator, by the number of times that its consumer calls `next`: whether it has stopped. -/
abbrev Generator := Nat → Traced ArrayEvent PyExc Bool

/-- `_iterate_results` of a pointer. -/
def iteratePointer (results : Option ResultsArray) : Generator
  | 0 => pure false
  | nexts + 1 =>
    match results with
    | none => .raise (.raised valueError "NULL pointer access")
    | some results => iterateResults results.memory (nexts + 1) 0

/-- The generator of attempt number `n`; call number `n` of the Go library returns `answers n`. -/
def getRunResults (answers : Nat → Option ResultsArray) (n : Nat) : Generator
  | 0 => pure false
  | nexts + 1 => do
    .emit (.goCall n)
    match answers n with
    | none => .raise (.raised runtimeError ("Unmapped SDK error: Go client failed to return " ++
        "coherent result. This is a bug and must be reported to the maintainer team."))
    | some results =>
      let stopped ← iterateResults results.memory (nexts + 1) 0
      .when stopped (.emit .freed)
      return stopped

/-- `_await_tagged`. -/
def awaitTaggedRuns (answers : Nat → Option ResultsArray) (n : Nat) :
    Traced ArrayEvent PyExc Generator := do
  .emit (.goCall n)
  return iteratePointer (answers n)

/-- `ConcurrentTaskRunner.eager` for the functions with the given aliases. -/
abbrev Eager := List (String × Traced ArrayEvent PyExc Generator) →
  Traced ArrayEvent PyExc (Dict String Generator)

/-- A single function runs once, and its result is found under its alias. -/
def RunsSingle (eager : Eager) : Prop :=
  ∀ name func results, func.outcome = .ok results →
    eager [(name, func)] = ⟨func.events, .ok (.ofList [(name, results)])⟩

def awaitTagged (eager : Eager) (answers : Nat → Option ResultsArray) (reportProgress : Bool)
    (n : Nat) : Traced ArrayEvent PyExc Generator := do
  if !reportProgress then return ← awaitTaggedRuns answers n
  let completedResults ← eager [("result", awaitTaggedRuns answers n)]
  match completedResults.get? "result" with
  | some results => return results
  | none => .raise (.raised keyError "result")

/-! ### The async client -/

/-- What `run_blocking` awaits in attempt number `n`: a generator function returns at once. -/
def getRunResultsAttempt (answers : Nat → Option ResultsArray) (n : Nat) :
    Traced ArrayEvent PyExc (Option Generator) :=
  .of (.ok (some (getRunResults answers n)))

def awaitTaggedAttempt (eager : Eager) (answers : Nat → Option ResultsArray) (reportProgress : Bool)
    (n : Nat) : Traced ArrayEvent PyExc (Option Generator) := do
  return some (← awaitTagged eager answers reportProgress n)

def runResultsMessage (tag : String) (algorithm : Option String) : String :=
  "Fatal error when getting run results for requests with tag " ++ algorithm.getD "None" ++ "/" ++ tag

/-- `tags` is the list of the tags as Python prints it. -/
def taggedMessage (tags : String) (algorithm : Option String) : String :=
  "Fatal error when awaiting tagged runs with tags " ++ tags ++ " for algorithm " ++
    algorithm.getD "None"

namespace NexusSchedulerAsyncClient

def getRunResults (answers : Nat → Option ResultsArray) (tag : String) (algorithm : Option String) :
    Traced ArrayEvent PyExc (Option Generator) :=
  NexusClientAsyncRetryPolicy.execute .default
    (fun n => .of (.ok (.coroutine (runBlocking (getRunResultsAttempt answers n)))))
    (runResultsMessage tag algorithm)

def awaitTagged (eager : Eager) (answers : Nat → Option ResultsArray) (tags : String)
    (algorithm : Option String) (reportProgress : Bool) :
    Traced ArrayEvent PyExc (Option Generator) :=
  NexusClientAsyncRetryPolicy.execute .default
    (fun n => .of (.ok (.coroutine
      (runBlocking (awaitTaggedAttempt eager answers reportProgress n)))))
    (taggedMessage tags algorithm)

end NexusSchedulerAsyncClient

/-! ### What retry coverage is -/

/-- The awaited operation, and then the given number of calls of `next`. -/
def consume (awaited : Traced ArrayEvent PyExc (Option Generator)) (nexts : Nat) :
    Traced ArrayEvent PyExc (Option Bool) := do
  match ← awaited with
  | some results => return some (← results nexts)
  | none => .raise (.raised typeError "'NoneType' object is not an iterator")

def ArrayEvent.goCall? : ArrayEvent → Option Nat
  | .goCall n => some n
  | _ => none

/-- The calls of the Go library. -/
def goCalls {α : Type} (x : Traced ArrayEvent PyExc α) : List Nat :=
  x.events.filterMap ArrayEvent.goCall?

/-- The policy covers the query with the given attempts as if its results were consumed in the
attempt, as for an operation with a single result. -/
structure RetryCovered (awaited : Traced ArrayEvent PyExc (Option Generator))
    (attempt : Nat → Traced ArrayEvent PyExc (Option Generator)) (message : String) : Prop where
  never_raised : ∀ nexts e, (consume awaited nexts).outcome = .error e →
    e.isInstance networkError = false
  goCalls_eq : ∀ nexts, goCalls (consume awaited nexts) =
    goCalls (NexusClientRetryPolicy.default.execute (fun n => consume (attempt n) nexts) message)
  outcome_eq : ∀ nexts, (consume awaited nexts).outcome.mapError PyExc.bare =
    (NexusClientRetryPolicy.default.execute (fun n => consume (attempt n) nexts)
      message).outcome.mapError PyExc.bare
  /-- The awaited operation itself reports the exhaustion. -/
  exhausted :
    (∀ n < NexusClientRetryPolicy.default.retryCount.toNat, ∃ nexts e,
      (consume (attempt n) nexts).outcome = .error e ∧ e.isInstance networkError = true) →
    ∃ e, awaited.outcome = .error e ∧ e.isInstance nexusClientRuntimeError = true

/-! ### When the generators raise network errors -/

def RaisesNetworkError (g : Generator) : Prop :=
  ∃ nexts e, (g nexts).outcome = .error e ∧ e.isInstance networkError = true

/-- Before the first error, which is a `NetworkError`, all elements can be decoded and are not
blank. -/
def ReportsNetworkError : List SdkRunResult → Prop
  | [] => False
  | r :: rest => r.fields.all decodes = true ∧ r.blank = false ∧
    match r.carried with
    | none => ReportsNetworkError rest
    | some e => e.isInstance networkError = true

section Generators

variable {results : Nat → SdkRunResult} {i : Nat} {e : PyExc}

theorem not_raises_of_breaks (h : turn (results i) = .breaks) :
    ¬ RaisesNetworkError fun nexts => iterateResults results nexts i := by
  rintro ⟨nexts, e, herror, -⟩
  cases nexts with
  | zero => cases herror
  | succ nexts =>
    simp only [iterateResults_breaks h, reduceCtorEq] at herror

theorem raises_of_raises_iff (h : turn (results i) = .raises e) :
    (RaisesNetworkError fun nexts => iterateResults results nexts i) ↔
      e.isInstance networkError = true := by
  constructor
  · rintro ⟨nexts, e', herror, hnetwork⟩
    cases nexts with
    | zero => cases herror
    | succ nexts =>
      simp only [iterateResults_raises h, Except.error.injEq] at herror
      exact herror ▸ hnetwork
  · intro hnetwork
    refine ⟨1, e, ?_, hnetwork⟩
    simp only [iterateResults_raises h]

theorem raises_of_yields_iff {result : RunResult} (h : turn (results i) = .yields result) :
    (RaisesNetworkError fun nexts => iterateResults results nexts i) ↔
      RaisesNetworkError fun nexts => iterateResults results nexts (i + 1) := by
  constructor
  · rintro ⟨nexts, e, herror, hnetwork⟩
    cases nexts with
    | zero => cases herror
    | succ nexts =>
      simp only [iterateResults_yields h] at herror
      exact ⟨nexts, e, herror, hnetwork⟩
  · rintro ⟨nexts, e, herror, hnetwork⟩
    refine ⟨nexts + 1, e, ?_, hnetwork⟩
    simp only [iterateResults_yields h]
    exact herror

theorem iterateResults_raises_iff (xs : List SdkRunResult) (i : Nat) (h : StandsAt results xs i) :
    (RaisesNetworkError fun nexts => iterateResults results nexts i) ↔ ReportsNetworkError xs := by
  induction xs generalizing i with
  | nil =>
    have hbreaks : turn (results i) = .breaks := congrArg turn h.2
    exact iff_of_false (not_raises_of_breaks hbreaks) id
  | cons r rest ih =>
    have hturn := turn_eq r
    have hr : results i = r := h.1 0 r rfl
    unfold ReportsNetworkError
    cases hdecodes : r.fields.all decodes with
    | false =>
      rw [hdecodes, ← hr] at hturn
      rw [raises_of_raises_iff hturn]
      exact iff_of_false (by decide) (by simp)
    | true =>
    cases hblank : r.blank with
    | true =>
      rw [hdecodes, hblank, ← hr] at hturn
      exact iff_of_false (not_raises_of_breaks hturn) (by simp)
    | false =>
    simp only [hdecodes, hblank, if_true, Bool.false_eq_true, if_false, true_and] at hturn ⊢
    cases hcarried : r.carried with
    | none =>
      rw [hcarried, ← hr] at hturn
      rw [raises_of_yields_iff hturn, ih (i + 1) h.tail]
    | some e =>
      rw [hcarried, ← hr] at hturn
      rw [raises_of_raises_iff hturn]

end Generators

/-- The array of a call, if there is one, reports a `NetworkError`. -/
def AnswerReports (results : Option ResultsArray) : Prop :=
  ∃ a, results = some a ∧ ReportsNetworkError a.elements

theorem iteratePointer_raises_iff (results : Option ResultsArray) :
    RaisesNetworkError (iteratePointer results) ↔ AnswerReports results := by
  cases results with
  | none =>
    refine iff_of_false ?_ ?_
    · rintro ⟨_ | nexts, e, herror, hnetwork⟩
      · cases herror
      · obtain rfl := Except.error.inj herror
        exact absurd hnetwork (by decide)
    · rintro ⟨a, ha, -⟩
      cases ha
  | some a =>
    have heq : iteratePointer (some a) = fun nexts => iterateResults a.memory nexts 0 := by
      funext nexts
      cases nexts <;> rfl
    rw [heq, iterateResults_raises_iff a.elements 0 (standsAt_memory a)]
    simp [AnswerReports]

/-- The body of `get_run_results` raises what the traversal raises. -/
theorem outcome_getRunResults_some {answers : Nat → Option ResultsArray} {n : Nat} {a : ResultsArray}
    (h : answers n = some a) (nexts : Nat) :
    (getRunResults answers n nexts).outcome = (iterateResults a.memory nexts 0).outcome := by
  cases nexts with
  | zero => rfl
  | succ nexts =>
    simp only [getRunResults, h, Traced.outcome_bind]
    cases (iterateResults a.memory (nexts + 1) 0).outcome with
    | error e => rfl
    | ok stopped => cases stopped <;> rfl

theorem getRunResults_raises_iff (answers : Nat → Option ResultsArray) (n : Nat) :
    RaisesNetworkError (getRunResults answers n) ↔ AnswerReports (answers n) := by
  cases h : answers n with
  | none =>
    refine iff_of_false ?_ ?_
    · rintro ⟨_ | nexts, e, herror, hnetwork⟩
      · cases herror
      · simp only [getRunResults, h] at herror
        obtain rfl := Except.error.inj herror
        exact absurd hnetwork (by decide)
    · rintro ⟨a, ha, -⟩
      cases ha
  | some a =>
    have hraises : RaisesNetworkError (getRunResults answers n) ↔
        RaisesNetworkError fun nexts => iterateResults a.memory nexts 0 := by
      unfold RaisesNetworkError
      simp only [outcome_getRunResults_some h]
    rw [hraises, iterateResults_raises_iff a.elements 0 (standsAt_memory a)]
    simp [AnswerReports]

/-! ### When the policy covers the queries -/

section Coverage

variable {attempt : Nat → Traced ArrayEvent PyExc (Option Generator)} {g : Generator}

theorem consume_of_some {awaited : Traced ArrayEvent PyExc (Option Generator)}
    (h : awaited.outcome = .ok (some g)) (nexts : Nat) :
    consume awaited nexts =
      ⟨awaited.events ++ (g nexts).events, (g nexts).outcome.map some⟩ := by
  obtain ⟨events, outcome⟩ := awaited
  obtain rfl : outcome = .ok (some g) := h
  unfold consume
  rw [Traced.mk_ok_bind]
  simp only [Traced.bind_def, Traced.bind, Traced.pure_def]
  cases (g nexts).outcome with
  | error e => rfl
  | ok stopped => simp [Except.map]

/-- The first attempt is the only one if it does not end with a network error. -/
theorem execute_first {α : Type} {x : Nat → Traced ArrayEvent PyExc (Option α)} {message : String}
    (h : ∀ e, (x 0).outcome = .error e → e.isInstance networkError = false) :
    NexusClientRetryPolicy.default.execute x message = x 0 := by
  refine Traced.retry_of_not_retried ?_ 2
  unfold Traced.retried
  cases hout : (x 0).outcome with
  | ok a => rfl
  | error e => exact (retries_default e).trans (h e hout)

/-- The policy returns the generator of the first attempt. -/
theorem awaited_eq {message : String} (h : (attempt 0).outcome = .ok (some g)) :
    NexusClientAsyncRetryPolicy.execute .default
      (fun n => .of (.ok (.coroutine (runBlocking (attempt n))))) message = attempt 0 := by
  have hreturns : NoStopIteration (attempt 0).outcome := fun e he => by cases h.symm.trans he
  have hfirst : coroutine (runBlocking (attempt 0)) = attempt 0 := blocking_eq_self hreturns
  have hnot : (coroutine (runBlocking (attempt 0))).retried
      NexusClientRetryPolicy.default.retries = false := by
    rw [hfirst, Traced.retried, h]
  rw [NexusClientAsyncRetryPolicy.execute_eq]
  calc
    _ = coroutine (coroutine (runBlocking (attempt 0))) :=
      congrArg coroutine (Traced.retry_of_not_retried hnot 2)
    _ = attempt 0 := by rw [hfirst, coroutine_eq_self hreturns]

/-- A query whose attempts return generators is covered exactly if the generator of the first attempt
raises no network error. -/
theorem retryCovered_iff {message : String} (h : (attempt 0).outcome = .ok (some g)) :
    RetryCovered
        (NexusClientAsyncRetryPolicy.execute .default
          (fun n => .of (.ok (.coroutine (runBlocking (attempt n))))) message)
        attempt message ↔
      ¬ RaisesNetworkError g := by
  have hconsume := consume_of_some h
  rw [awaited_eq h]
  constructor
  · rintro hcovered ⟨nexts, e, herror, hnetwork⟩
    have hfalse := hcovered.never_raised nexts e (by rw [hconsume, herror]; rfl)
    rw [hnetwork] at hfalse
    cases hfalse
  · intro hraises
    have hnever (nexts : Nat) (e : PyExc) (he : (consume (attempt 0) nexts).outcome = .error e) :
        e.isInstance networkError = false := by
      rw [hconsume] at he
      by_contra hnetwork
      refine hraises ⟨nexts, e, ?_, by simpa using hnetwork⟩
      cases hout : (g nexts).outcome with
      | ok stopped =>
        rw [hout] at he
        cases he
      | error e' =>
        rw [hout] at he
        exact congrArg Except.error (Except.error.inj he)
    have hexecute (nexts : Nat) : NexusClientRetryPolicy.default.execute
        (fun n => consume (attempt n) nexts) message = consume (attempt 0) nexts :=
      execute_first (hnever nexts)
    refine ⟨hnever, fun nexts => ?_, fun nexts => ?_, fun hall => ?_⟩
    · rw [hexecute]
    · rw [hexecute]
    · obtain ⟨nexts, e, herror, hnetwork⟩ := hall 0 (by decide)
      rw [hnever nexts e herror] at hnetwork
      cases hnetwork

end Coverage

theorem awaitTaggedAttempt_eq {eager : Eager} (heager : RunsSingle eager)
    (answers : Nat → Option ResultsArray) (reportProgress : Bool) (n : Nat) :
    awaitTaggedAttempt eager answers reportProgress n =
      ⟨[.goCall n], .ok (some (iteratePointer (answers n)))⟩ := by
  unfold awaitTaggedAttempt awaitTagged
  cases reportProgress with
  | false => rfl
  | true =>
    rw [heager "result" (awaitTaggedRuns answers n) (iteratePointer (answers n)) rfl]
    rfl

/-- Both list queries are covered by the retry policy exactly if the first array that the Go library
returns reports no `NetworkError`. -/
theorem list_queries_covered_iff {eager : Eager} (heager : RunsSingle eager)
    (answers : Nat → Option ResultsArray) (tag tags : String) (algorithm : Option String)
    (reportProgress : Bool) :
    (RetryCovered (NexusSchedulerAsyncClient.getRunResults answers tag algorithm)
        (getRunResultsAttempt answers) (runResultsMessage tag algorithm) ↔
      ¬ AnswerReports (answers 0)) ∧
    (RetryCovered (NexusSchedulerAsyncClient.awaitTagged eager answers tags algorithm reportProgress)
        (awaitTaggedAttempt eager answers reportProgress) (taggedMessage tags algorithm) ↔
      ¬ AnswerReports (answers 0)) := by
  constructor
  · rw [← getRunResults_raises_iff]
    exact retryCovered_iff rfl
  · rw [← iteratePointer_raises_iff]
    refine retryCovered_iff ?_
    rw [awaitTaggedAttempt_eq heager]

/-- A runner for which the functions run one after another. -/
def eagerInOrder : Eager
  | [] => pure .empty
  | (name, func) :: rest => do
    let results ← func
    return (← eagerInOrder rest).set name results

theorem runsSingle_eagerInOrder : RunsSingle eagerInOrder := by
  intro name func results h
  obtain ⟨events, outcome⟩ := func
  obtain rfl : outcome = .ok results := h
  rw [eagerInOrder, Traced.mk_ok_bind]
  simp only [eagerInOrder, Traced.pure_def, Traced.of_ok_bind, Traced.events_of, List.append_nil]
  rfl

/-- Two results, one of which has an error of a type that the client does not know. -/
def twoResults : ResultsArray where
  elements :=
    [{ SdkRunResult.null with
        requestId := some "run-1".toUTF8
        status := some "COMPLETED".toUTF8 },
      { SdkRunResult.null with
        requestId := some "run-2".toUTF8
        clientErrorType := some "*models.ConflictError".toUTF8 }]
  beyond _ := .null

theorem list_queries_covered_iff_twoResults :
    let answers : Nat → Option ResultsArray := fun _ => some twoResults
    RetryCovered (NexusSchedulerAsyncClient.getRunResults answers "nightly" none)
        (getRunResultsAttempt answers) (runResultsMessage "nightly" none) ∧
      RetryCovered
        (NexusSchedulerAsyncClient.awaitTagged eagerInOrder answers "['nightly']" none true)
        (awaitTaggedAttempt eagerInOrder answers true) (taggedMessage "['nightly']" none) := by
  intro answers
  have hanswer : ¬ AnswerReports (answers 0) := by
    rintro ⟨a, ha, hreports⟩
    obtain rfl := Option.some.inj ha
    have hcarried : (SdkRunResult.carried { SdkRunResult.null with
        requestId := some "run-2".toUTF8
        clientErrorType := some "*models.ConflictError".toUTF8 }) = none := by
      rw [SdkRunResult.carried, carriedError_toUTF8]
      rfl
    obtain ⟨-, -, -, -, hrest⟩ := hreports
    rw [hcarried] at hrest
    exact hrest
  obtain ⟨hresults, htagged⟩ := list_queries_covered_iff runsSingle_eagerInOrder answers "nightly"
    "['nightly']" none true
  exact ⟨hresults.mpr hanswer, htagged.mpr hanswer⟩

/-- One element, which reports a network error. -/
def networkErrorArray : ResultsArray where
  elements := [.ofErrorType "*models.NetworkError"]
  beyond _ := .null

theorem reports_networkErrorArray : ReportsNetworkError networkErrorArray.elements := by
  refine ⟨decodes_ofErrorType _, blank_ofErrorType (by decide), ?_⟩
  rw [carried_ofErrorType]
  have hinstance : (PyExc.raised networkError "None").isInstance networkError = true := by decide
  exact hinstance

/-- The network error of the first array reaches the consumer, although the second call would have
returned an array without errors. -/
theorem network_error_not_covered :
    let answers : Nat → Option ResultsArray := fun n =>
      if n = 0 then some networkErrorArray else some ⟨[], fun _ => .null⟩
    let awaited := NexusSchedulerAsyncClient.getRunResults answers "nightly" none
    (∃ nexts e, (consume awaited nexts).outcome = .error e ∧ e.isInstance networkError = true) ∧
      ¬ RetryCovered awaited (getRunResultsAttempt answers) (runResultsMessage "nightly" none) := by
  intro answers awaited
  have hraises : RaisesNetworkError (getRunResults answers 0) :=
    (getRunResults_raises_iff answers 0).mpr ⟨_, rfl, reports_networkErrorArray⟩
  obtain ⟨nexts, e, herror, hnetwork⟩ := hraises
  have hconsume : (consume awaited nexts).outcome = .error e := by
    have hawaited : awaited = getRunResultsAttempt answers 0 := awaited_eq rfl
    rw [hawaited, consume_of_some rfl, herror]
    rfl
  refine ⟨⟨nexts, e, hconsume, hnetwork⟩, fun hcovered => ?_⟩
  have hfalse := hcovered.never_raised nexts e hconsume
  rw [hnetwork] at hfalse
  cases hfalse

end NexusSdk.Client
