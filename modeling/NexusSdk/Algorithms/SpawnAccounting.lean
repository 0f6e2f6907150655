import NexusSdk.Algorithms.Spawning
import Mathlib.Data.List.Sort

/-! What `_spawn_all` counts and collects once all tasks are done.  It goes through the done tasks in
the order in which their set is iterated, which is not that of the list. -/

namespace NexusSdk.Algorithms

open Lib

/-- What is sent to the metrics provider; the value of a gauge is a quotient before it is rounded. -/
inductive Metric
  | increment (name : String)
  | gauge (name : String) (value : Rat)
  deriving DecidableEq

def scheduleFailed : String := "remote_algorithm_run_schedule_failed"

def scheduled : String := "remote_algorithm_run_scheduled"

def scheduledRate : String := "remote_algorithm_scheduled_rate"

/-- A result is an object of its own, and known by the task that returned it. -/
abbrev TaskResult (R : Type) := Nat × R

structure DirectedGraphResult (R : Type) where
  remoteAlgorithmMetadata : Option (List (TaskResult R))

def DirectedGraphResult.setRemoteAlgorithmMetadata {R : Type} (result : DirectedGraphResult R)
    (remoteAlgorithmMetadata : List (TaskResult R)) : DirectedGraphResult R :=
  { result with remoteAlgorithmMetadata := some remoteAlgorithmMetadata }

namespace DirectedGraph

variable {Obj Val F C V α R : Type}

namespace State

variable (s : State Obj Val F C V α R)

/-- How the run of remote algorithm `i` ended. -/
def taskOutcome (i : Nat) : Option (Except PyExc R) :=
  match s.phases i with
  | some (.done _ outcome) => some outcome
  | _ => none

/-- `task.exception() is None`. -/
def succeeded (i : Nat) : Bool :=
  match s.taskOutcome i with
  | some (.ok _) => true
  | _ => false

def cancelled (i : Nat) : Bool :=
  match s.taskOutcome i with
  | some (.error e) => e.isCancelled
  | _ => false

def taskResult (i : Nat) : Option (TaskResult R) :=
  match s.taskOutcome i with
  | some (.ok r) => some (i, r)
  | _ => none

/-- The loop over the done tasks; `exception()` raises for a task that was cancelled. -/
def collectResults : List Nat → Traced Metric PyExc (List (TaskResult R))
  | [] => pure []
  | i :: rest =>
    match s.taskOutcome i with
    | some (.ok r) => do
      .emit (.increment scheduled)
      return (i, r) :: (← collectResults rest)
    | some (.error e) =>
      if e.isCancelled then .raise e
      else do
        .emit (.increment scheduleFailed)
        collectResults rest
    | none => collectResults rest

/-- `_spawn_all` after `asyncio.wait`. -/
def collectDone (done : List Nat) : Traced Metric PyExc (List (TaskResult R)) := do
  let remoteResults ← s.collectResults done
  let successfulRate : Rat := (done.countP s.succeeded : Nat) / (done.length : Nat)
  .emit (.gauge scheduledRate successfulRate)
  return remoteResults

/-- `_spawn_remote_algorithms` without `async_spawn_enabled`, after `asyncio.wait`. -/
def spawnRemoteAlgorithms (runResult : DirectedGraphResult R) (done : List Nat) :
    Traced Metric PyExc (DirectedGraphResult R) := do
  return runResult.setRemoteAlgorithmMetadata (← s.collectDone done)

end State

variable (G : DirectedGraph Obj Val F C V α R)

/-- The spawner collects the results: all tasks are done, and their set is iterated in the given
order. -/
structure Collects (s : State Obj Val F C V α R) (done : List Nat) : Prop where
  waiting : s.spawner = .waiting
  perm : done.Perm (List.range G.remoteAlgorithms.length)
  finished : done.all s.finished = true

/-- The accounting that is wanted. -/
structure Accounted (s : State Obj Val F C V α R) (runResult : DirectedGraphResult R)
    (spawned : Traced Metric PyExc (DirectedGraphResult R)) : Prop where
  started : s.started = List.range G.remoteAlgorithms.length
  counted : spawned.events.count (.increment scheduled) +
    spawned.events.count (.increment scheduleFailed) = G.remoteAlgorithms.length
  gauged : spawned.events.filter (fun m => m matches .gauge _ _) =
    [.gauge scheduledRate (((List.range G.remoteAlgorithms.length).countP s.succeeded : Nat) /
      (G.remoteAlgorithms.length : Nat))]
  metadata : spawned.outcome = .ok { runResult with
    remoteAlgorithmMetadata := some ((List.range G.remoteAlgorithms.length).filterMap s.taskResult) }

/-! ### The loop over the done tasks -/

section Loop

variable {s : State Obj Val F C V α R} {i : Nat} {r : R} {e : PyExc} {done : List Nat}

/-- A task that is done succeeded or failed. -/
theorem taskOutcome_of_finished (h : s.finished i = true) :
    ∃ submission outcome, s.phases i = some (.done submission outcome) ∧
      s.taskOutcome i = some outcome := by
  unfold State.finished at h
  split at h
  · next submission outcome hphase =>
    exact ⟨submission, outcome, hphase, by simp only [State.taskOutcome, hphase]⟩
  · cases h

theorem collectResults_ok (h : s.taskOutcome i = some (.ok r)) (rest : List Nat) :
    s.collectResults (i :: rest) = ⟨.increment scheduled :: (s.collectResults rest).events,
      (s.collectResults rest).outcome.map ((i, r) :: ·)⟩ := by
  rw [State.collectResults, h]
  obtain ⟨events, outcome⟩ := s.collectResults rest
  cases outcome with
  | error e => rfl
  | ok results =>
    simp only [Traced.mk_ok_bind, Traced.pure_def, Traced.events_of, List.append_nil]
    rfl

theorem collectResults_failed (h : s.taskOutcome i = some (.error e))
    (hcancelled : e.isCancelled = false) (rest : List Nat) :
    s.collectResults (i :: rest) = ⟨.increment scheduleFailed :: (s.collectResults rest).events,
      (s.collectResults rest).outcome⟩ := by
  rw [State.collectResults, h]
  simp only [hcancelled]
  rfl

theorem collectResults_cancelled (h : s.taskOutcome i = some (.error e))
    (hcancelled : e.isCancelled = true) (rest : List Nat) :
    s.collectResults (i :: rest) = ⟨[], .error e⟩ := by
  rw [State.collectResults, h]
  simp only [hcancelled]
  rfl

/-- The counter that the loop increments for a task. -/
def counterOf (s : State Obj Val F C V α R) (i : Nat) : Metric :=
  .increment (if s.succeeded i then scheduled else scheduleFailed)

/-- Without a cancelled task, the loop counts every task and collects the results of the successful
ones. -/
theorem collectResults_eq (h : done.all s.finished = true)
    (hlive : ∀ i ∈ done, s.cancelled i = false) :
    s.collectResults done = ⟨done.map (counterOf s), .ok (done.filterMap s.taskResult)⟩ := by
  induction done with
  | nil => rfl
  | cons i rest ih =>
    rw [List.all_cons, Bool.and_eq_true] at h
    have hrest := ih h.2 fun j hj => hlive j (List.mem_cons_of_mem i hj)
    obtain ⟨-, outcome, -, houtcome⟩ := taskOutcome_of_finished h.1
    cases outcome with
    | ok r =>
      have hsucceeded : s.succeeded i = true := by simp [State.succeeded, houtcome]
      have hresult : s.taskResult i = some (i, r) := by simp [State.taskResult, houtcome]
      rw [collectResults_ok houtcome, hrest, List.map_cons, List.filterMap_cons_some hresult,
        counterOf, hsucceeded]
      rfl
    | error e =>
      have hsucceeded : s.succeeded i = false := by simp [State.succeeded, houtcome]
      have hresult : s.taskResult i = none := by simp [State.taskResult, houtcome]
      have hcancelled : e.isCancelled = false := by
        simpa [State.cancelled, houtcome] using hlive i List.mem_cons_self
      rw [collectResults_failed houtcome hcancelled, hrest, List.map_cons,
        List.filterMap_cons_none hresult, counterOf, hsucceeded]
      rfl

/-- The loop ends with the first cancelled task. -/
theorem collectResults_error (h : done.all s.finished = true) (hmem : i ∈ done)
    (hcancelled : s.cancelled i = true) : ∃ e, (s.collectResults done).outcome = .error e := by
  induction done with
  | nil => cases hmem
  | cons j rest ih =>
    rw [List.all_cons, Bool.and_eq_true] at h
    obtain ⟨-, outcome, -, houtcome⟩ := taskOutcome_of_finished h.1
    have hrest (hne : s.cancelled j = false) : ∃ e, (s.collectResults rest).outcome = .error e := by
      rcases List.mem_cons.mp hmem with rfl | hmem
      · rw [hne] at hcancelled
        cases hcancelled
      · exact ih h.2 hmem
    cases outcome with
    | ok r =>
      obtain ⟨e, he⟩ := hrest (by simp [State.cancelled, houtcome])
      rw [collectResults_ok houtcome, he]
      exact ⟨e, rfl⟩
    | error e =>
      cases hlive : e.isCancelled with
      | true => exact ⟨e, by rw [collectResults_cancelled houtcome hlive]⟩
      | false =>
        rw [collectResults_failed houtcome hlive]
        exact hrest (by simp [State.cancelled, houtcome, hlive])

theorem map_fst_taskResult (l : List Nat) :
    (l.filterMap s.taskResult).map Prod.fst = l.filter s.succeeded := by
  induction l with
  | nil => rfl
  | cons i rest ih =>
    unfold State.taskResult State.succeeded at ih ⊢
    rw [List.filterMap_cons, List.filter_cons]
    cases houtcome : s.taskOutcome i with
    | none => simpa [houtcome] using ih
    | some outcome => cases outcome <;> simpa [houtcome] using ih

theorem filterMap_taskResult (l : List Nat) :
    l.filterMap s.taskResult = (l.filter s.succeeded).filterMap s.taskResult := by
  rw [List.filterMap_filter]
  congr 1
  funext i
  unfold State.taskResult State.succeeded
  cases s.taskOutcome i with
  | none => rfl
  | some outcome => cases outcome <;> rfl

/-- The results are collected in the order of the list if their tasks are iterated in this order. -/
theorem filterMap_taskResult_eq_iff {n : Nat} (hperm : done.Perm (List.range n)) :
    done.filterMap s.taskResult = (List.range n).filterMap s.taskResult ↔
      (done.filter s.succeeded).Pairwise (· < ·) := by
  have hsorted : ((List.range n).filter s.succeeded).Pairwise (· < ·) :=
    List.pairwise_lt_range.filter _
  constructor
  · intro heq
    have hfst := congrArg (List.map Prod.fst) heq
    rw [map_fst_taskResult, map_fst_taskResult] at hfst
    rwa [hfst]
  · intro hdone
    have heq : done.filter s.succeeded = (List.range n).filter s.succeeded :=
      (hperm.filter s.succeeded).eq_of_pairwise
        (fun a b _ _ hab hba => absurd hab (Nat.lt_asymm hba)) hdone hsorted
    rw [filterMap_taskResult, heq, ← filterMap_taskResult]

theorem count_counterOf (l : List Nat) :
    (l.map (counterOf s)).count (.increment scheduled) +
      (l.map (counterOf s)).count (.increment scheduleFailed) = l.length := by
  induction l with
  | nil => rfl
  | cons i rest ih =>
    rw [List.map_cons, List.count_cons, List.count_cons, List.length_cons]
    have hone : (if counterOf s i == .increment scheduled then 1 else 0) +
        (if counterOf s i == .increment scheduleFailed then 1 else 0) = 1 := by
      unfold counterOf
      cases s.succeeded i <;> decide
    omega

theorem filter_counterOf (l : List Nat) :
    (l.map (counterOf s)).filter (fun m => m matches .gauge _ _) = [] := by
  rw [List.filter_eq_nil_iff]
  intro m hm
  obtain ⟨i, -, rfl⟩ := List.mem_map.mp hm
  simp [counterOf]

theorem outcome_collectResults (h : done.all s.finished = true) :
    (s.collectResults done).outcome.map (·.map Prod.snd) = s.remoteResults done := by
  induction done with
  | nil => rfl
  | cons i rest ih =>
    rw [List.all_cons, Bool.and_eq_true] at h
    have hrest := ih h.2
    obtain ⟨submission, outcome, hphase, houtcome⟩ := taskOutcome_of_finished h.1
    rw [State.remoteResults, hphase, ← hrest]
    cases outcome with
    | ok r =>
      rw [collectResults_ok houtcome]
      cases (s.collectResults rest).outcome <;> rfl
    | error e =>
      cases hcancelled : e.isCancelled with
      | true =>
        rw [collectResults_cancelled houtcome hcancelled]
        simp only [hcancelled]
        rfl
      | false =>
        rw [collectResults_failed houtcome hcancelled]
        simp only [hcancelled]
        rfl

end Loop

/-! ### When the accounting is right -/

variable {G : DirectedGraph Obj Val F C V α R} {s : State Obj Val F C V α R} {done : List Nat}

/-- The spawner of the model ends with what the loop collects. -/
theorem spawner_of_collects (h : G.Collects s done) :
    (G.stepSpawner s done).spawner =
      .ended ((s.collectDone done).outcome.map (·.map Prod.snd)) := by
  obtain ⟨hwaiting, hperm, hfinished⟩ := h
  have hcollected : (s.collectDone done).outcome = (s.collectResults done).outcome := by
    unfold State.collectDone
    rw [Traced.outcome_bind]
    cases (s.collectResults done).outcome <;> rfl
  unfold stepSpawner
  rw [hwaiting, hcollected, outcome_collectResults hfinished]
  exact congrArg State.spawner (if_pos ⟨hperm, hfinished⟩)

theorem started_of_waiting (h : G.Launched s) (hwaiting : s.spawner = .waiting) :
    s.started = List.range G.remoteAlgorithms.length := by
  rw [Launched, hwaiting] at h
  exact h

theorem accounted_iff (hlaunched : G.Launched s) (h : G.Collects s done)
    (runResult : DirectedGraphResult R) :
    G.Accounted s runResult (s.spawnRemoteAlgorithms runResult done) ↔
      (∀ i < G.remoteAlgorithms.length, s.cancelled i = false) ∧
        (done.filter s.succeeded).Pairwise (· < ·) := by
  obtain ⟨hwaiting, hperm, hfinished⟩ := h
  have hmem (i : Nat) : i ∈ done ↔ i < G.remoteAlgorithms.length :=
    hperm.mem_iff.trans List.mem_range
  by_cases hlive : ∀ i ∈ done, s.cancelled i = false
  · have hspawned : s.spawnRemoteAlgorithms runResult done =
        ⟨done.map (counterOf s) ++ [.gauge scheduledRate
            ((done.countP s.succeeded : Nat) / (done.length : Nat))],
          .ok (runResult.setRemoteAlgorithmMetadata (done.filterMap s.taskResult))⟩ := by
      unfold State.spawnRemoteAlgorithms State.collectDone
      rw [collectResults_eq hfinished hlive]
      simp [Traced.mk_ok_bind, Traced.emit]
    rw [hspawned, ← filterMap_taskResult_eq_iff hperm]
    constructor
    · intro haccounted
      refine ⟨fun i hi => hlive i ((hmem i).mpr hi), ?_⟩
      have hmetadata := Except.ok.inj haccounted.metadata
      exact Option.some.inj (congrArg DirectedGraphResult.remoteAlgorithmMetadata hmetadata)
    · rintro ⟨-, heq⟩
      have hlength : done.length = G.remoteAlgorithms.length := by
        rw [hperm.length_eq, List.length_range]
      refine ⟨started_of_waiting hlaunched hwaiting, ?_, ?_, ?_⟩
      · have hcount := count_counterOf (s := s) done
        rw [hlength] at hcount
        simpa [List.count_append, scheduled] using hcount
      · rw [List.filter_append, filter_counterOf, hlength, hperm.countP_eq]
        rfl
      · rw [heq]
        rfl
  · simp only [not_forall, Bool.not_eq_false] at hlive
    obtain ⟨i, hi, hcancelled⟩ := hlive
    obtain ⟨e, he⟩ := collectResults_error hfinished hi hcancelled
    refine iff_of_false (fun haccounted => ?_) fun hnone => ?_
    · have hmetadata := haccounted.metadata
      have herror : (s.spawnRemoteAlgorithms runResult done).outcome = .error e := by
        unfold State.spawnRemoteAlgorithms State.collectDone
        rw [Traced.outcome_bind, Traced.outcome_bind, he]
        rfl
      cases herror.symm.trans hmetadata
    · have hfalse := hnone.1 i ((hmem i).mp hi)
      rw [hcancelled] at hfalse
      cases hfalse

/-- In every run, the accounting of the spawner is right exactly if no task was cancelled and the
successful ones are iterated in the order of the list. -/
theorem spawn_accounted_iff [DecidableEq Obj] (G : DirectedGraph Obj Val F C V α R)
    (hsome : G.remoteAlgorithms ≠ []) (scheduler : Scheduler Nat F C) (moves : List (Move V))
    (runResult : DirectedGraphResult R) (done : List Nat)
    (h : G.Collects (run G.step (G.initial scheduler (.launching 0)) moves) done) :
    let s := run G.step (G.initial scheduler (.launching 0)) moves
    G.Accounted s runResult (s.spawnRemoteAlgorithms runResult done) ↔
      (∀ i < G.remoteAlgorithms.length, s.cancelled i = false) ∧
        (done.filter s.succeeded).Pairwise (· < ·) := by
  have hinitial : G.Launched (G.initial scheduler (.launching 0)) :=
    ⟨List.length_pos_of_ne_nil hsome, rfl⟩
  have hlaunched : G.Launched (run G.step (G.initial scheduler (.launching 0)) moves) :=
    run_invariant (I := G.Launched) (fun s move h => launched_step h move) hinitial moves
  exact accounted_iff hlaunched h runResult

end DirectedGraph

/-- A remote algorithm that submits nothing and returns a number. -/
def numberedAlgorithm (n : Nat) : RemoteAlgorithm Unit Unit Unit Unit Nat :=
  { idleAlgorithm with transformSubmissionResult := fun _ _ => .ok n }

def twoBranches : DirectedGraph Bool String Unit Unit Unit Unit Nat where
  inputs := Cache.readerChain
  kwargs := .empty
  asArg := fun _ => .object ()
  remoteAlgorithms := [⟨numberedAlgorithm 1, []⟩, ⟨numberedAlgorithm 2, []⟩]
  spawnBaseDelaySeconds := 0
  others := []

/-- Both branches end. -/
def branchesEnd : List (DirectedGraph.Move Unit) :=
  [.spawner [], .fork 0 .ends, .fork 1 .ends, .fork 1 .ends, .fork 0 .ends]

def branchesEnded : DirectedGraph.State Bool String Unit Unit Unit Unit Nat :=
  run twoBranches.step (twoBranches.initial ⟨[], List.nodup_nil⟩ (.launching 0)) branchesEnd

theorem spawn_accounted_iff_inOrder :
    twoBranches.Accounted branchesEnded ⟨none⟩
      (branchesEnded.spawnRemoteAlgorithms ⟨none⟩ [0, 1]) := by
  have hcollects : twoBranches.Collects branchesEnded [0, 1] := ⟨rfl, List.Perm.refl _, rfl⟩
  have hiff := twoBranches.spawn_accounted_iff (by simp [twoBranches]) ⟨[], List.nodup_nil⟩
    branchesEnd ⟨none⟩ [0, 1] hcollects
  have hsucceeded : [0, 1].filter branchesEnded.succeeded = [0, 1] := rfl
  refine hiff.mpr ⟨fun i hi => ?_, hsucceeded ▸ by decide⟩
  match i, hi with
  | 0, _ => rfl
  | 1, _ => rfl

/-- The set of the done tasks is iterated from the second one on. -/
theorem metadata_out_of_order :
    twoBranches.Collects branchesEnded [1, 0] ∧
      (branchesEnded.spawnRemoteAlgorithms ⟨none⟩ [1, 0]).outcome = .ok ⟨some [(1, 2), (0, 1)]⟩ ∧
      ¬ twoBranches.Accounted branchesEnded ⟨none⟩
        (branchesEnded.spawnRemoteAlgorithms ⟨none⟩ [1, 0]) := by
  refine ⟨⟨rfl, List.Perm.swap _ _ _, rfl⟩, rfl, fun haccounted => ?_⟩
  have hmetadata := haccounted.metadata
  have hinOrder : (List.range twoBranches.remoteAlgorithms.length).filterMap
      branchesEnded.taskResult = [(0, 1), (1, 2)] := rfl
  rw [hinOrder] at hmetadata
  have hactual : (branchesEnded.spawnRemoteAlgorithms ⟨none⟩ [1, 0]).outcome =
      .ok ⟨some [(1, 2), (0, 1)]⟩ := rfl
  cases hactual.symm.trans hmetadata

end NexusSdk.Algorithms
