import NexusSdk.Algorithms.SpawnedRuns
import NexusSdk.Client.RetryPolicy

/-! The invocations attempt by attempt.  `NexusSchedulerAsyncClient` retries `create_run` and
`get_request_metadata` after network errors; an attempt whose response is lost may have created a
run.  `get_run_results` returns a generator, so that its policy never gets an error. -/

namespace NexusSdk.Algorithms

open Lib Input Client

/-! ### A retried call -/

/-- What follows an attempt that raised; `again` has the exceptions that are being handled, the last
one first. -/
inductive Retry
  | again (failures : List PyExc)
  | raises (e : PyExc)

/-- The handler of the default policy, for an attempt that raises `e` after `failures`. -/
def afterAttempt (message : String) (failures : List PyExc) (e : PyExc) : Retry :=
  if NexusClientRetryPolicy.default.retries e then
    if failures.length + 1 < NexusClientRetryPolicy.default.retryCount.toNat then
      .again (e :: failures)
    else .raises ((e :: failures).foldl PyExc.during (.new nexusClientRuntimeError message))
  else .raises (failures.foldl PyExc.during e)

theorem afterAttempt_again {message : String} {failures failures' : List PyExc} {e : PyExc}
    (h : afterAttempt message failures e = .again failures') :
    NexusClientRetryPolicy.default.retries e = true ∧ failures' = e :: failures ∧
      failures'.length < 3 := by
  unfold afterAttempt at h
  split at h
  · next hretries =>
    split at h
    · next hleft =>
      cases h
      exact ⟨hretries, rfl, hleft⟩
    · cases h
  · cases h

section Execute

variable {E α : Type}

/-- The attempts `0`, `1`, ... raised `failures`, and were retried. -/
inductive Failed (message : String) (runnable : Nat → Traced E PyExc (Option α)) :
    List PyExc → Prop
  | nil : Failed message runnable []
  | cons {failures : List PyExc} {e : PyExc} (before : Failed message runnable failures)
    (raised : (runnable failures.length).outcome = .error e)
    (again : afterAttempt message failures e = .again (e :: failures)) :
    Failed message runnable (e :: failures)

variable {message : String} {runnable : Nat → Traced E PyExc (Option α)} {failures : List PyExc}

/-- `execute` goes on with the attempts that are left, while the failures are handled. -/
theorem Failed.execute (h : Failed message runnable failures) :
    failures.length < 3 ∧ (NexusClientRetryPolicy.default.execute runnable message).outcome =
      (Traced.retry NexusClientRetryPolicy.default.retries PyExc.during
        (NexusClientRetryPolicy.default.handleRetryExhaust message) runnable
        (3 - failures.length) failures.length).outcome.mapError
          (failures.foldl PyExc.during ·) := by
  induction h with
  | nil =>
    refine ⟨Nat.zero_lt_succ 2, ?_⟩
    show _ = (NexusClientRetryPolicy.default.execute runnable message).outcome.mapError id
    cases (NexusClientRetryPolicy.default.execute runnable message).outcome <;> rfl
  | @cons failures e _ raised again ih =>
    obtain ⟨hretries, -, hlength⟩ := afterAttempt_again again
    have hleft : 3 - failures.length = 3 - (e :: failures).length + 1 := by
      simp only [List.length_cons] at hlength ⊢
      omega
    refine ⟨hlength, ih.2.trans ?_⟩
    rw [hleft, Traced.retry, Traced.handle, raised]
    simp only [hretries, if_true, List.length_cons, List.foldl_cons]
    cases (Traced.retry _ _ _ runnable _ (failures.length + 1)).outcome <;> rfl

/-- An attempt that returns ends the call. -/
theorem Failed.execute_of_returned (h : Failed message runnable failures) {a : Option α}
    (hlast : (runnable failures.length).outcome = .ok a) :
    (NexusClientRetryPolicy.default.execute runnable message).outcome = .ok a := by
  obtain ⟨hlength, hexecute⟩ := h.execute
  obtain ⟨left, hleft⟩ := Nat.exists_eq_add_of_lt hlength
  rw [hexecute, show 3 - failures.length = left + 1 by omega, Traced.retry, Traced.handle, hlast]
  exact congrArg _ hlast

/-- So does one after whose exception the handler raises. -/
theorem Failed.execute_of_raised (h : Failed message runnable failures) {e e' : PyExc}
    (hlast : (runnable failures.length).outcome = .error e)
    (hraises : afterAttempt message failures e = .raises e') :
    (NexusClientRetryPolicy.default.execute runnable message).outcome = .error e' := by
  obtain ⟨hlength, hexecute⟩ := h.execute
  obtain ⟨left, hleft⟩ := Nat.exists_eq_add_of_lt hlength
  rw [hexecute, show 3 - failures.length = left + 1 by omega, Traced.retry, Traced.handle, hlast]
  unfold afterAttempt at hraises
  split at hraises
  · next hretries =>
    split at hraises
    · cases hraises
    · next hnone =>
      obtain rfl : left = 0 := by
        have : NexusClientRetryPolicy.default.retryCount.toNat = 3 := rfl
        omega
      cases hraises
      simp only [hretries, if_true]
      rfl
  · next hretries =>
    cases hraises
    simp only [hretries]
    rfl

/-- `execute` makes attempts until one returns, or the handler raises after one. -/
theorem execute_attempts (message : String) (runnable : Nat → Traced E PyExc (Option α)) :
    ∃ failures, Failed message runnable failures ∧
      ((∃ a, (runnable failures.length).outcome = .ok a ∧
        (NexusClientRetryPolicy.default.execute runnable message).outcome = .ok a) ∨
      ∃ e e', (runnable failures.length).outcome = .error e ∧
        afterAttempt message failures e = .raises e' ∧
        (NexusClientRetryPolicy.default.execute runnable message).outcome = .error e') := by
  suffices h : ∀ n failures, Failed message runnable failures → 3 - failures.length = n → _ from
    h 3 [] .nil rfl
  intro n
  induction n with
  | zero =>
    intro failures hfailed hn
    have := hfailed.execute.1
    omega
  | succ n ih =>
    intro failures hfailed hn
    cases hlast : (runnable failures.length).outcome with
    | ok a => exact ⟨failures, hfailed, .inl ⟨a, hlast, hfailed.execute_of_returned hlast⟩⟩
    | error e =>
      cases hafter : afterAttempt message failures e with
      | again failures' =>
        obtain ⟨-, rfl, -⟩ := afterAttempt_again hafter
        refine ih (e :: failures) (.cons hfailed hlast hafter) ?_
        rw [List.length_cons]
        omega
      | raises e' =>
        have hexecute := hfailed.execute_of_raised hlast hafter
        exact ⟨failures, hfailed, .inr ⟨e, e', hlast, hafter, hexecute⟩⟩

end Execute

/-! ### Invocations -/

section Attempts

variable {ι F C V α R : Type}

/-- The invocations, and the exceptions of the earlier attempts of the calls that they await. -/
structure Attempts (ι F C V α R : Type) extends Submissions ι F C V α R where
  failures : ι → List PyExc

/-- The message for exhausted retries, if the awaited call is retried. -/
def RemoteAlgorithm.exhaustMessage (alg : RemoteAlgorithm F C V α R) :
    Phase ι F C V α R → Option String
  | .describing _ _ _ requestId _ =>
    let name := alg.remoteName
    some s!"Fatal error when getting metadata for request {name}/{requestId}"
  | .creating _ _ =>
    let name := alg.remoteName
    some s!"Fatal error when creating a run for template {name}"
  | _ => none

/-- What an invocation gets. -/
inductive AttemptAnswer (V : Type)
  /-- an attempt of the awaited call ends -/
  | attempt (answer : Answer V)
  /-- an exception that no policy handles: one of the listed results, or one that is thrown into the
  sleep after an attempt -/
  | outside (e : PyExc)

/-- The exception that an attempt ends with. -/
def Answer.raised? : Answer V → Option PyExc
  | .createsAndRaises _ _ e | .raises e => some e
  | _ => none

def Answer.raise (e : PyExc) : Answer V → Answer V
  | .createsAndRaises id receivedAt _ => .createsAndRaises id receivedAt e
  | .raises _ => .raises e
  | answer => answer

/-- What the policy makes of an answer, if it handles it. -/
def RemoteAlgorithm.retry? (alg : RemoteAlgorithm F C V α R) (phase : Phase ι F C V α R)
    (failures : List PyExc) (answer : Answer V) : Option Retry :=
  (alg.exhaustMessage phase).bind fun message => answer.raised?.map (afterAttempt message failures)

/-- The call of invocation `i` ends with the answer. -/
def RemoteAlgorithm.finish (alg : RemoteAlgorithm F C V α R) (i : ι) (scheduler : Scheduler ι F C)
    (phase : Phase ι F C V α R) (answer : Answer V) :
    Option (Scheduler ι F C × Phase ι F C V α R × List PyExc) :=
  (alg.resume i scheduler phase answer).map fun next => (next.1, next.2, [])

/-- The invocation `i` goes on. -/
def RemoteAlgorithm.attempt (alg : RemoteAlgorithm F C V α R) (i : ι) (scheduler : Scheduler ι F C)
    (phase : Phase ι F C V α R) (failures : List PyExc) :
    AttemptAnswer V → Option (Scheduler ι F C × Phase ι F C V α R × List PyExc)
  | .outside e => alg.finish i scheduler phase (.raises (failures.foldl PyExc.during e))
  | .attempt answer =>
    match alg.retry? phase failures answer with
    | none => alg.finish i scheduler phase answer
    | some (.raises e) => alg.finish i scheduler phase (answer.raise e)
    -- what the attempt has done stays done, and the call is still awaited
    | some (.again failures) =>
      (alg.resume i scheduler phase answer).map fun next => (next.1, phase, failures)

/-- What can happen: the call ends, or an attempt is retried, with or without a run created. -/
inductive Attempted (alg : RemoteAlgorithm F C V α R) (i : ι) (scheduler : Scheduler ι F C)
    (phase : Phase ι F C V α R) (failures : List PyExc) :
    AttemptAnswer V → Scheduler ι F C → Phase ι F C V α R → List PyExc → Prop
  | ended {answer : AttemptAnswer V} {answer' : Answer V} {scheduler' : Scheduler ι F C}
    {phase' : Phase ι F C V α R}
    (hanswer : ∀ results, answer' = .resolves results → answer = .attempt (.resolves results))
    (hresume : alg.resume i scheduler phase answer' = some (scheduler', phase')) :
    Attempted alg i scheduler phase failures answer scheduler' phase' []
  | failed {message : String} {e : PyExc} {failures' : List PyExc}
    (hagain : afterAttempt message failures e = .again failures') :
    Attempted alg i scheduler phase failures (.attempt (.raises e)) scheduler phase failures'
  | lost {l : Submitting V α} {request : RunRequest F C} {message id : String}
    {receivedAt : Option String} {e : PyExc} {scheduler' : Scheduler ι F C}
    {failures' : List PyExc} (hphase : phase = .creating l request)
    (hagain : afterAttempt message failures e = .again failures')
    (hcreate : scheduler.create ⟨request, id, receivedAt, some (i, l.requestIds.length)⟩ =
      some scheduler') :
    Attempted alg i scheduler phase failures (.attempt (.createsAndRaises id receivedAt e))
      scheduler' phase failures'

variable {alg : RemoteAlgorithm F C V α R} {i : ι} {scheduler scheduler' : Scheduler ι F C}
  {phase phase' : Phase ι F C V α R} {failures failures' : List PyExc} {answer : Answer V}

/-- An attempt raises without an effect, or creates a run and raises. -/
theorem resume_of_raised {e : PyExc} (hraised : answer.raised? = some e)
    (h : alg.resume i scheduler phase answer = some (scheduler', phase')) :
    answer = .raises e ∧ scheduler' = scheduler ∨
      ∃ l request id receivedAt, phase = .creating l request ∧
        answer = .createsAndRaises id receivedAt e ∧
        scheduler.create ⟨request, id, receivedAt, some (i, l.requestIds.length)⟩ =
          some scheduler' := by
  cases answer with
  | raises e' =>
    cases hraised
    refine .inl ⟨rfl, ?_⟩
    cases phase <;> cases h <;> rfl
  | createsAndRaises id receivedAt e' =>
    cases hraised
    cases phase with
    | creating l request =>
      obtain ⟨created, hcreate, heq⟩ := Option.map_eq_some_iff.mp h
      cases heq
      exact .inr ⟨l, request, id, receivedAt, rfl, rfl, hcreate⟩
    | _ => cases h
  | _ => cases hraised

theorem attempted_of_finish {attemptAnswer : AttemptAnswer V}
    (hanswer : ∀ results, answer = .resolves results →
      attemptAnswer = .attempt (.resolves results))
    (h : alg.finish i scheduler phase answer = some (scheduler', phase', failures')) :
    Attempted alg i scheduler phase failures attemptAnswer scheduler' phase' failures' := by
  obtain ⟨next, hresume, heq⟩ := Option.map_eq_some_iff.mp h
  cases heq
  exact .ended hanswer hresume

theorem attempted_of_attempt {attemptAnswer : AttemptAnswer V}
    (h : alg.attempt i scheduler phase failures attemptAnswer =
      some (scheduler', phase', failures')) :
    Attempted alg i scheduler phase failures attemptAnswer scheduler' phase' failures' := by
  cases attemptAnswer with
  | outside e => exact attempted_of_finish (fun _ hresults => by cases hresults) h
  | attempt answer =>
    unfold RemoteAlgorithm.attempt at h
    dsimp only at h
    split at h
    · exact attempted_of_finish (fun _ hresults => by rw [hresults]) h
    · refine attempted_of_finish (fun results hresults => ?_) h
      cases answer <;> cases hresults
      rfl
    · next failures'' hretry =>
      obtain ⟨message, -, hretry⟩ := Option.bind_eq_some_iff.mp hretry
      obtain ⟨e, he, hagain⟩ := Option.map_eq_some_iff.mp hretry
      obtain ⟨⟨scheduler'', _⟩, hresume, heq⟩ := Option.map_eq_some_iff.mp h
      cases heq
      rcases resume_of_raised he hresume with
        ⟨rfl, rfl⟩ | ⟨l, request, id, receivedAt, hphase, rfl, hcreate⟩
      · exact .failed hagain
      · exact .lost hphase hagain hcreate

variable [DecidableEq ι]

/-- A move names the invocation and what it gets; one that is not possible changes nothing. -/
def Attempts.step (algs : ι → RemoteAlgorithm F C V α R) (s : Attempts ι F C V α R)
    (move : ι × AttemptAnswer V) : Attempts ι F C V α R :=
  match (algs move.1).attempt move.1 s.scheduler (s.phases move.1) (s.failures move.1) move.2 with
  | none => s
  | some (scheduler, phase, failures) =>
    ⟨⟨scheduler, Function.update s.phases move.1 phase⟩,
      Function.update s.failures move.1 failures⟩

variable {algs : ι → RemoteAlgorithm F C V α R} {s : Attempts ι F C V α R}

theorem Attempts.step_cases (algs : ι → RemoteAlgorithm F C V α R) (s : Attempts ι F C V α R)
    (move : ι × AttemptAnswer V) :
    s.step algs move = s ∨ ∃ scheduler phase failures,
      Attempted (algs move.1) move.1 s.scheduler (s.phases move.1) (s.failures move.1) move.2
        scheduler phase failures ∧
      s.step algs move = ⟨⟨scheduler, Function.update s.phases move.1 phase⟩,
        Function.update s.failures move.1 failures⟩ := by
  unfold Attempts.step
  split
  · exact .inl rfl
  · next hattempt => exact .inr ⟨_, _, _, attempted_of_attempt hattempt, rfl⟩

/-! ### At most three runs for a payload -/

variable {kwargs : ι → RunArgs V} {Resolves : ι → RunArgs V → Prop}

/-- The invocations follow plans, with as many attempts of a call as the policy allows. -/
structure Attempts.Follows (plans : ∀ i, Option (Plan (algs i) (kwargs i) (Resolves i)))
    (s : Attempts ι F C V α R) : Prop where
  bounded : ∀ i, (s.failures i).length < 3
  follows : FollowsPlans 3 plans s.toSubmissions fun i => (s.failures i).length

variable {plans : ∀ i, Option (Plan (algs i) (kwargs i) (Resolves i))}

omit [DecidableEq ι] in
theorem Phase.mayHave_mono {phase : Phase ι F C V α R} {current current' : Nat}
    (h : current ≤ current') (most k : Nat) :
    phase.mayHave most current k ≤ phase.mayHave most current' k := by
  cases phase with
  | creating l request =>
    simp only [Phase.mayHave]
    split
    · exact le_rfl
    · split
      · exact h
      · exact le_rfl
  | _ => exact le_rfl

theorem Attempts.Follows.update (h : s.Follows plans) {i : ι} {failures : List PyExc}
    (hfailures : failures.length < 3) {scheduler : Scheduler ι F C} {phase : Phase ι F C V α R}
    {plans' : ∀ i, Option (Plan (algs i) (kwargs i) (Resolves i))}
    (hfollows : FollowsPlans 3 plans' ⟨scheduler, Function.update s.phases i phase⟩
      fun j => (Function.update s.failures i failures j).length) :
    Attempts.Follows plans' ⟨⟨scheduler, Function.update s.phases i phase⟩,
      Function.update s.failures i failures⟩ where
  bounded j := by
    show (Function.update s.failures i failures j).length < 3
    by_cases hj : j = i
    · subst hj
      rwa [Function.update_self]
    · rw [Function.update_of_ne hj]
      exact h.bounded j
  follows := hfollows

theorem Attempts.Follows.step (h : s.Follows plans) (move : ι × AttemptAnswer V)
    (hmove : ∀ results, move.2 = .attempt (.resolves results) → Resolves move.1 results) :
    ∃ plans' : ∀ i, Option (Plan (algs i) (kwargs i) (Resolves i)),
      (s.step algs move).Follows plans' := by
  rcases s.step_cases algs move with heq | ⟨scheduler, phase, failures, hattempted, heq⟩
  · rw [heq]
    exact ⟨plans, h⟩
  · rw [heq]
    obtain ⟨i, answer⟩ := move
    have hothers : ∀ j ≠ i, (Function.update s.failures i failures j).length =
        (s.failures j).length := fun j hj => by rw [Function.update_of_ne hj]
    have hthis : (Function.update s.failures i failures i).length = failures.length := by
      rw [Function.update_self]
    cases hattempted with
    | ended hanswer hresume =>
      obtain ⟨plans', hfollows⟩ := h.follows.resume (h.bounded i)
        (fun results hresults => hmove results (hanswer results hresults)) hresume hothers
      exact ⟨plans', h.update (by simp) hfollows⟩
    | failed hagain =>
      obtain ⟨-, rfl, hlength⟩ := afterAttempt_again hagain
      refine ⟨plans, h.update hlength (h.follows.update (h.follows.phases i) (fun k => ?_) hothers)⟩
      rw [hthis]
      exact Phase.mayHave_mono (Nat.le_succ _) 3 k
    | lost hphase hagain hcreate =>
      obtain ⟨-, rfl, hlength⟩ := afterAttempt_again hagain
      have hruns := runs_create hcreate
      have hfollows := h.follows.phases i
      rw [hphase] at hfollows
      obtain ⟨q, hq, parameters, hat, hrequest⟩ := hfollows
      refine ⟨plans, h.update hlength (h.follows.create hruns rfl
        ⟨q, hq, (hat.carries hrequest).1⟩ ((h.follows.phases i).mono fun run hrun =>
          hruns ▸ List.mem_append_left _ hrun) (fun m => ?_) hothers)⟩
      rw [hthis, hphase]
      simp only [Phase.mayHave, List.length_cons]
      split
      · next hlt => rw [if_neg hlt.ne', Nat.add_zero]
      · split
        · next heq => rw [if_pos heq.symm]
        · next hne => rw [if_neg fun heq => hne heq.symm]

/-- The invocations when they are started. -/
def Attempts.started (existing : Scheduler ι F C) (kwargs : ι → RunArgs V) :
    Attempts ι F C V α R :=
  ⟨NexusSdk.Algorithms.started existing kwargs, fun _ => []⟩

theorem Attempts.exists_follows {existing : Scheduler ι F C}
    (hexisting : ∀ run ∈ existing.runs, run.origin = none) {σ : List (ι × AttemptAnswer V)}
    (hσ : ∀ i results, (i, .attempt (.resolves results)) ∈ σ → Resolves i results) :
    ∃ plans : ∀ i, Option (Plan (algs i) (kwargs i) (Resolves i)),
      (run (Attempts.step algs) (Attempts.started existing kwargs) σ).Follows plans := by
  refine run_induction
    (C := fun _ move => ∀ results, move.2 = .attempt (.resolves results) → Resolves move.1 results)
    (I := fun s => ∃ plans : ∀ i, Option (Plan (algs i) (kwargs i) (Resolves i)),
      Attempts.Follows plans s)
    (fun _ move ⟨_, h⟩ hmove => h.step move hmove)
    ⟨_, fun _ => Nat.zero_lt_succ 2, followsPlans_started hexisting 3 _⟩
    (along_iff.mpr fun before move after hsplit results hanswer => hσ _ _ ?_)
  rw [hsplit, ← hanswer]
  exact List.mem_append_right _ List.mem_cons_self

/-! ### Attempts as calls -/

/-- An attempt whose response is lost after it created its run is not retried. -/
def KeepsResponses (s : Attempts ι F C V α R) (move : ι × AttemptAnswer V) : Prop :=
  ∀ id receivedAt e l request, move.2 = .attempt (.createsAndRaises id receivedAt e) →
    s.phases move.1 = .creating l request → NexusClientRetryPolicy.default.retries e = true →
    2 ≤ (s.failures move.1).length

/-- Such an attempt is the call, or changes nothing. -/
theorem KeepsResponses.refines {move : ι × AttemptAnswer V} (h : KeepsResponses s move) :
    (s.step algs move).toSubmissions = s.toSubmissions ∨ ∃ answer : Answer V,
      (∀ results, answer = .resolves results → move.2 = .attempt (.resolves results)) ∧
      (s.step algs move).toSubmissions = s.toSubmissions.step algs (move.1, answer) := by
  rcases s.step_cases algs move with heq | ⟨scheduler, phase, failures, hattempted, heq⟩
  · rw [heq]
    exact .inl rfl
  · rw [heq]
    obtain ⟨i, answer⟩ := move
    cases hattempted with
    | @ended _ answer' _ _ hanswer hresume =>
      refine .inr ⟨answer', hanswer, ?_⟩
      rw [Submissions.step, hresume]
    | failed hagain =>
      refine .inl ?_
      show (⟨s.scheduler, Function.update s.phases i (s.phases i)⟩ : Submissions ι F C V α R) = _
      rw [Function.update_eq_self]
    | lost hphase hagain hcreate =>
      obtain ⟨hretries, rfl, hlength⟩ := afterAttempt_again hagain
      have htwo : 2 ≤ (s.failures i).length := h _ _ _ _ _ rfl hphase hretries
      simp only [List.length_cons] at hlength
      omega

/-- If no response of a creation is lost to a retry, the invocations behave as if every call were
made once. -/
theorem attempts_refine_submissions {ι F C V α R : Type} [DecidableEq ι]
    (algs : ι → RemoteAlgorithm F C V α R) (existing : Scheduler ι F C) (kwargs : ι → RunArgs V)
    (σ : List (ι × AttemptAnswer V))
    (hkeeps : Along (Attempts.step algs) KeepsResponses (Attempts.started existing kwargs) σ) :
    ∃ τ : List (ι × Answer V), τ.length ≤ σ.length ∧
      (∀ i results, (i, .resolves results) ∈ τ → (i, .attempt (.resolves results)) ∈ σ) ∧
      (run (Attempts.step algs) (Attempts.started existing kwargs) σ).toSubmissions =
        run (Submissions.step algs) (started existing kwargs) τ := by
  show ∃ τ : List (ι × Answer V), _ ∧ _ ∧ _ =
    run (Submissions.step algs) (Attempts.started existing kwargs).toSubmissions τ
  generalize Attempts.started existing kwargs = s at hkeeps ⊢
  induction σ generalizing s with
  | nil => exact ⟨[], le_rfl, fun _ _ h => (by cases h), rfl⟩
  | cons move σ ih =>
    obtain ⟨hmove, hrest⟩ := hkeeps
    obtain ⟨τ, hlength, hresolves, hτ⟩ := ih _ hrest
    rcases hmove.refines with hstutter | ⟨answer, hanswer, hcall⟩
    · refine ⟨τ, hlength.trans (Nat.le_succ _), fun i results h =>
        List.mem_cons_of_mem _ (hresolves i results h), ?_⟩
      rw [run_cons, hτ, hstutter]
    · refine ⟨(move.1, answer) :: τ, Nat.succ_le_succ hlength, fun i results h => ?_, ?_⟩
      · rcases List.mem_cons.mp h with heq | h
        · obtain ⟨rfl, rfl⟩ := Prod.mk.inj heq
          rw [← hanswer results rfl]
          exact List.mem_cons_self
        · exact List.mem_cons_of_mem _ (hresolves i results h)
      · rw [run_cons, run_cons, hτ, hcall]

end Attempts

/-- Whatever the attempts of the calls meet with, at most three runs are created for a payload, the
process of each of them binds the payload, and an invocation that comes to the end of its payloads
has the id of a run for each. -/
theorem retried_runs_bind_payloads {ι F C V α R O X S : Type} [DecidableEq ι] (J : JsonModule F)
    (algs : ι → RemoteAlgorithm F C V α R) (apps : String → Core.Application α O X S)
    (T : String → JsonPayloadType J α)
    (hagree : ∀ i, Agree J (algs i) (apps (algs i).remoteName) (T (algs i).remoteName))
    (existing : Scheduler ι F C) (hexisting : ∀ run ∈ existing.runs, run.origin = none)
    (kwargs : ι → RunArgs V) (σ : List (ι × AttemptAnswer V)) :
    let s := run (Attempts.step algs) (Attempts.started existing kwargs) σ
    (∀ i k, (s.scheduler.runs.countP fun run => run.origin = some (i, k)) ≤ 3) ∧
      ∃ plans : ∀ i, Option (Plan (algs i) (kwargs i) fun results =>
          (i, .attempt (.resolves results)) ∈ σ),
        (∀ run ∈ s.scheduler.runs, ∀ i k, run.origin = some (i, k) →
          ∃ q ∈ plans i, ∃ p, q.payloads[k]? = some p ∧
            (algs i).payloadTag q.args q.commonTag p = .ok run.tag ∧
            BindsPayload (apps run.algorithmName) (J.dumps run.algorithmParameters).toUTF8 p) ∧
        ∀ i ids commonTag result, s.phases i = .done (some (ids, commonTag)) result →
          ∃ q ∈ plans i, q.payloads.Forall₂ (q.SubmittedAs s.scheduler) ids := by
  intro s
  obtain ⟨plans, hbounded, hplans⟩ : ∃ plans : ∀ i,
      Option (Plan (algs i) (kwargs i) fun results => (i, .attempt (.resolves results)) ∈ σ),
      s.Follows plans := Attempts.exists_follows hexisting fun _ _ h => h
  refine ⟨fun i k => (hplans.created i k).trans (Phase.mayHave_le (hbounded i).le k), plans,
    fun run hrun i k horigin => hplans.bindsPayload apps T hrun horigin (hagree i),
    fun i ids commonTag result hdone => ?_⟩
  have hfollows := hplans.phases i
  rw [hdone] at hfollows
  exact hfollows

/-! ### Forecasts with network errors -/

def networkFailure : PyExc := .new networkError "connection reset"

/-- Two attempts create a run, but their responses are lost. -/
def lostAnswers : List (Unit × AttemptAnswer Unit) :=
  [((), .attempt (.resolves Dict.empty)), ((), .attempt .ends),
    ((), .attempt (.createsAndRaises "run-1" none networkFailure)),
    ((), .attempt (.createsAndRaises "run-2" none networkFailure)),
    ((), .attempt (.creates "run-3" none))]

theorem retried_runs_bind_payloads_forecasts :
    let s := run (Attempts.step fun _ => packedForecasts)
      (Attempts.started ⟨[], List.nodup_nil⟩ fun _ => Dict.empty) lostAnswers
    s.scheduler.runs.map RemoteRun.id = ["run-1", "run-2", "run-3"] ∧
      ∀ run ∈ s.scheduler.runs,
        BindsPayload forecastApplication (utf8Json.dumps run.algorithmParameters).toUTF8 1 := by
  intro s
  refine ⟨rfl, fun run hrun => ?_⟩
  have horigins : s.scheduler.runs.map RemoteRun.origin = List.replicate 3 (some ((), 0)) := rfl
  have horigin : run.origin = some ((), 0) :=
    List.eq_of_mem_replicate (horigins ▸ List.mem_map_of_mem hrun)
  obtain ⟨-, plans, hplans, -⟩ := retried_runs_bind_payloads utf8Json
    (fun _ : Unit => packedForecasts) (fun _ => forecastApplication) (fun _ => counterType)
    (fun _ => agree_packedForecasts) ⟨[], List.nodup_nil⟩ (by simp) (fun _ => Dict.empty)
    lostAnswers
  obtain ⟨q, -, p, hp, -, hbinds⟩ := hplans run hrun () 0 horigin
  have hpayloads : [1, 2] = q.payloads := Except.ok.inj q.coreRun_eq
  rw [← hpayloads] at hp
  obtain rfl : 1 = p := Option.some.inj hp
  exact hbinds

/-- The first attempt does not reach the scheduler. -/
def refusedAnswers : List (Unit × AttemptAnswer Unit) :=
  [((), .attempt (.resolves Dict.empty)), ((), .attempt .ends),
    ((), .attempt (.raises networkFailure)), ((), .attempt (.creates "run-1" none))]

theorem attempts_refine_submissions_forecasts :
    ∃ τ : List (Unit × Answer Unit), τ.length ≤ 4 ∧
      (run (Attempts.step fun _ => packedForecasts)
        (Attempts.started ⟨[], List.nodup_nil⟩ fun _ => Dict.empty) refusedAnswers).toSubmissions =
      run (Submissions.step fun _ => packedForecasts)
        (started ⟨[], List.nodup_nil⟩ fun _ => Dict.empty) τ := by
  obtain ⟨τ, hlength, -, hτ⟩ := attempts_refine_submissions (fun _ : Unit => packedForecasts)
    ⟨[], List.nodup_nil⟩ (fun _ => Dict.empty) refusedAnswers
    ⟨fun _ _ _ _ _ h => (by cases h), fun _ _ _ _ _ h => (by cases h),
      fun _ _ _ _ _ h => (by cases h), fun _ _ _ _ _ h => (by cases h), trivial⟩
  exact ⟨τ, hlength, hτ⟩

end NexusSdk.Algorithms
