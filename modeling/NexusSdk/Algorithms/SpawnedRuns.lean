import NexusSdk.Algorithms.Delivery
import NexusSdk.Algorithms.Isolation
import NexusSdk.Lib.Simulation

/-! The remote algorithms of a run of the application, seen as concurrent invocations: whatever the
spawner, the shared cache and the coroutine of `activate` do, and in which order, the scheduler and
the awaits of the remote algorithms are those of invocations with one scheduler. -/

namespace NexusSdk.Algorithms

open Lib Input

variable {Obj Val F C V α R : Type}

/-- In the place of a remote algorithm that does not exist. -/
def RemoteAlgorithm.absent : RemoteAlgorithm F C V α R where
  remoteName := ""
  isHardDependency := false
  forceRun := false
  remoteConfig := none
  compressor := none
  compressPayload := false
  algorithmName := ""
  dryRun := false
  deserialize _ := .error (.raised exception "")
  toJson _ := ""
  coreRun _ := .error (.raised exception "")
  generateTag _ := .error (.raised exception "")
  generateTagFromRemotePayload _ _ := .error (.raised exception "")
  generateRemoteConfigFromRemotePayload _ _ := .error (.raised exception "")
  transformSubmissionResult _ _ := .error (.raised exception "")

namespace DirectedGraph

variable (G : DirectedGraph Obj Val F C V α R)

def algorithm (i : Nat) : RemoteAlgorithm F C V α R :=
  match G.remoteAlgorithms[i]? with
  | some fork => fork.algorithm
  | none => .absent

/-- The invocations, before and after their tasks exist. -/
def submissions (s : State Obj Val F C V α R) : Submissions Nat F C V α R where
  scheduler := s.scheduler
  phases i := (s.phases i).getD (.resolving (G.toArgs G.kwargs))

/-- What an invocation gets from the cache is what its call of `resolve` has returned. -/
def Justified (s : State Obj Val F C V α R) (move : Nat × Answer V) : Prop :=
  ∀ results, move.2 = .resolves results → ∃ call d, s.cache.calls[move.1]? = some call ∧
    call.state = .returned d ∧ G.toArgs d = results

variable {G} {s s' : State Obj Val F C V α R} {i : Nat} {fork : Fork Obj F C V α R}

theorem algorithm_eq (hfork : G.remoteAlgorithms[i]? = some fork) :
    G.algorithm i = fork.algorithm := by
  rw [algorithm, hfork]

theorem phases_submissions {phase : Phase Nat F C V α R} (hphase : s.phases i = some phase) :
    (G.submissions s).phases i = phase := by
  show (s.phases i).getD _ = phase
  rw [hphase]
  rfl

theorem submissions_update {scheduler : Scheduler Nat F C} {phase : Phase Nat F C V α R}
    (hscheduler : s'.scheduler = scheduler)
    (hphases : s'.phases = Function.update s.phases i (some phase)) :
    G.submissions s' = ⟨scheduler, Function.update (G.submissions s).phases i phase⟩ := by
  rw [submissions, hscheduler]
  refine congrArg (Submissions.mk scheduler) (funext fun j => ?_)
  by_cases hj : j = i
  · subst hj
    rw [hphases, Function.update_self, Function.update_self]
    rfl
  · rw [hphases, Function.update_of_ne hj, Function.update_of_ne hj]
    rfl

/-- A new task changes nothing that the scheduler could see. -/
theorem submissions_stepSpawner (hlaunched : G.Launched s) (hlinked : G.Linked s)
    (order : List Nat) : G.submissions (G.stepSpawner s order) = G.submissions s := by
  rw [submissions, (stepSpawner_frame order).2]
  refine congrArg (Submissions.mk s.scheduler) (funext fun i => ?_)
  rcases phases_stepSpawner hlaunched order i with hsame | ⟨hnew, hresolving⟩
  · rw [hsame]
  · have hnone : s.phases i = none := by
      rw [hlinked.started, not_exists] at hnew
      exact Option.eq_none_iff_forall_ne_some.mpr hnew
    rw [hresolving, hnone]
    rfl

/-- A step of an invocation, as a step of the submissions. -/
theorem submissions_resume {phase phase' : Phase Nat F C V α R} {scheduler : Scheduler Nat F C}
    {answer : Answer V} (hfork : G.remoteAlgorithms[i]? = some fork)
    (hphase : s.phases i = some phase)
    (hresume : fork.algorithm.resume i s.scheduler phase answer = some (scheduler, phase'))
    (hscheduler : s'.scheduler = scheduler)
    (hphases : s'.phases = Function.update s.phases i (some phase')) :
    G.submissions s' = run (Submissions.step G.algorithm) (G.submissions s) [(i, answer)] := by
  have hbefore : (G.algorithm i).resume i (G.submissions s).scheduler
      ((G.submissions s).phases i) answer = some (scheduler, phase') := by
    rw [algorithm_eq hfork, phases_submissions hphase]
    exact hresume
  rw [submissions_update hscheduler hphases, run_cons, run_nil, Submissions.step]
  simp only [hbefore]

variable [DecidableEq Obj]

theorem submissions_stepFork (answer : Answer V) :
    ∃ τ, G.submissions (G.stepFork s i answer) =
        run (Submissions.step G.algorithm) (G.submissions s) τ ∧
      ∀ move ∈ τ, G.Justified (G.stepFork s i answer) move := by
  have hsteps : ForkSteps G s i answer (G.stepFork s i answer) := stepFork_cases
  generalize G.stepFork s i answer = s' at hsteps ⊢
  cases hsteps with
  | absent _ => exact ⟨[], rfl, by simp⟩
  | waits _ _ _ => exact ⟨[], rfl, by simp⟩
  | refused _ _ _ _ => exact ⟨[], rfl, by simp⟩
  | @resolved fork kwargs call phase hfork hphase hcall hended =>
    rcases hended with ⟨d, hreturned, rfl⟩ | ⟨e, -, rfl⟩
    · refine ⟨[(i, .resolves (G.toArgs d))], submissions_resume hfork hphase rfl rfl rfl, ?_⟩
      rintro move hmove results hresults
      obtain rfl := List.mem_singleton.mp hmove
      exact ⟨call, d, hcall, hreturned, Answer.resolves.inj hresults⟩
    · refine ⟨[(i, .raises e)], submissions_resume hfork hphase rfl rfl rfl, ?_⟩
      rintro move hmove results hresults
      obtain rfl := List.mem_singleton.mp hmove
      cases hresults
  | @resumed fork phase phase' scheduler hfork hphase hresolved hresume =>
    refine ⟨[(i, answer)], submissions_resume hfork hphase hresume rfl rfl, ?_⟩
    rintro move hmove results hresults
    obtain rfl := List.mem_singleton.mp hmove
    obtain rfl : answer = .resolves results := hresults
    -- past the resolution of its inputs, an invocation does not take this answer
    cases phase with
    | resolving kwargs => exact absurd rfl (hresolved kwargs)
    | _ => cases hresume

theorem submissions_step (hlaunched : G.Launched s) (hlinked : G.Linked s) (move : Move V) :
    ∃ τ, G.submissions (G.step s move) =
        run (Submissions.step G.algorithm) (G.submissions s) τ ∧
      ∀ move' ∈ τ, G.Justified (G.step s move) move' := by
  cases move with
  | spawner order => exact ⟨[], submissions_stepSpawner hlaunched hlinked order, by simp⟩
  | fork i answer => exact submissions_stepFork answer
  | cache caller =>
    refine ⟨[], ?_, by simp⟩
    rw [step]
    split <;> rfl

theorem linked_step (hlaunched : G.Launched s) (hlinked : G.Linked s) (move : Move V) :
    G.Linked (G.step s move) := by
  cases move with
  | spawner order => exact linked_stepSpawner hlinked hlaunched order
  | fork i answer => exact linked_stepFork hlinked answer
  | cache caller => exact linked_cache hlinked caller

theorem Justified.step {move' : Nat × Answer V} (h : G.Justified s move') (move : Move V) :
    G.Justified (G.step s move) move' := by
  intro results hresults
  obtain ⟨call, d, hcall, hreturned, hd⟩ := h results hresults
  have hended : call.state.ended = true := by
    rw [hreturned]
    rfl
  refine ⟨call, d, ?_, hreturned, hd⟩
  rw [cache_step]
  exact Cache.State.call_step_ended hcall hended

theorem linked_initial (scheduler : Scheduler Nat F C) (spawner : Spawner R) :
    G.Linked (G.initial scheduler spawner) := by
  rcases Nat.eq_zero_or_pos G.remoteAlgorithms.length with hnone | hforks
  · refine ⟨fun i => by simp [initial], fun i fork hfork => ?_⟩
    rw [List.length_eq_zero_iff.mp hnone] at hfork
    cases hfork
  · have hlinked := (coherent_initial (G := G) scheduler hforks).linked
    exact ⟨hlinked.started, hlinked.calls⟩

end DirectedGraph

/-! ### The run of the application -/

namespace Activation

variable {A : Activation Obj Val F C V α R} {s : State Obj Val F C V α R}

/-- The coroutine of `activate` does nothing in the graph but start the spawner. -/
theorem graph_stepMain (s : State Obj Val F C V α R) :
    ∃ spawner, (A.stepMain s).graph = { s.graph with spawner } := by
  unfold stepMain
  split
  · split <;> exact ⟨_, rfl⟩
  · exact ⟨_, rfl⟩
  · split
    · unfold spawnRemoteAlgorithms
      split <;> exact ⟨_, rfl⟩
    · exact ⟨_, rfl⟩
    · exact ⟨_, rfl⟩
  · split <;> exact ⟨_, rfl⟩
  · exact ⟨_, rfl⟩
  · exact ⟨_, rfl⟩
  · exact ⟨_, rfl⟩

variable [DecidableEq Obj]

/-- A move is one of the graph, or leaves everything but the spawner as it is. -/
theorem graph_step (s : State Obj Val F C V α R) (move : Move V) :
    (∃ spawner, (A.step s move).graph = { s.graph with spawner }) ∨
      ∃ move', (A.step s move).graph = A.graph.step s.graph move' := by
  cases move with
  | main => exact .inl (graph_stepMain s)
  | graph move =>
    rw [step]
    split
    · exact .inl ⟨_, rfl⟩
    · exact .inr ⟨move, rfl⟩

theorem simulates (A : Activation Obj Val F C V α R) :
    Simulates A.step (Submissions.step A.graph.algorithm) (fun s => A.graph.submissions s.graph)
      (fun s => (A.graph.Launched s.graph ∧ A.MainSound s) ∧ A.graph.Linked s.graph)
      (fun s move => A.graph.Justified s.graph move) where
  preserves s move h := by
    refine ⟨sound_step h.1 move, ?_⟩
    rcases graph_step s move with ⟨spawner, heq⟩ | ⟨move', heq⟩
    · rw [heq]
      exact ⟨h.2.started, h.2.calls⟩
    · rw [heq]
      exact DirectedGraph.linked_step h.1.1 h.2 move'
  follows s move h := by
    rcases graph_step s move with ⟨spawner, heq⟩ | ⟨move', heq⟩
    · exact ⟨[], by rw [heq]; rfl, by simp⟩
    · rw [heq]
      exact DirectedGraph.submissions_step h.1.1 h.2 move'
  keeps s move move' _ h := by
    rcases graph_step s move with ⟨spawner, heq⟩ | ⟨move', heq⟩
    · rw [heq]
      exact h
    · rw [heq]
      exact h.step move'

/-- In every run of the application, the remote algorithms are concurrent invocations with the
scheduler: what they await, and the runs that exist, are those of a run of the submissions, in which
an invocation gets from the cache what its call of `resolve` has returned. -/
theorem spawned_runs_refine_submissions (A : Activation Obj Val F C V α R)
    (scheduler : Scheduler Nat F C) (σ : List (Move V)) :
    let s := (run A.step (A.initial scheduler) σ).graph
    ∃ τ, A.graph.submissions s = run (Submissions.step A.graph.algorithm)
        (started scheduler fun _ => A.graph.toArgs A.graph.kwargs) τ ∧
      ∀ move ∈ τ, A.graph.Justified s move :=
  (simulates A).run ⟨sound_initial scheduler, DirectedGraph.linked_initial scheduler _⟩ σ

/-- The runs that exist were created by plans, made from what the calls of `resolve` have returned. -/
theorem exists_plans (A : Activation Obj Val F C V α R) {scheduler : Scheduler Nat F C}
    (hexisting : ∀ run ∈ scheduler.runs, run.origin = none) (σ : List (Move V)) :
    let s := (run A.step (A.initial scheduler) σ).graph
    ∃ plans : ∀ i, Option (Plan (A.graph.algorithm i) (A.graph.toArgs A.graph.kwargs) fun results =>
        ∃ call d, s.cache.calls[i]? = some call ∧ call.state = .returned d ∧
          A.graph.toArgs d = results),
      FollowsPlans 1 plans (A.graph.submissions s) fun _ => 0 := by
  intro s
  obtain ⟨τ, hτ, hjustified⟩ := (simulates A).run
    ⟨sound_initial scheduler, DirectedGraph.linked_initial scheduler _⟩ σ
  rw [hτ]
  exact exists_followsPlans hexisting fun i results hmem => hjustified _ hmem results rfl

end Activation

section Payloads

variable {O X S : Type} {G : DirectedGraph Obj Val F C V α R}
  {s : DirectedGraph.State Obj Val F C V α R} {J : JsonModule F}
  {plans : ∀ i, Option (Plan (G.algorithm i) (G.toArgs G.kwargs) fun results =>
    ∃ call d, s.cache.calls[i]? = some call ∧ call.state = .returned d ∧ G.toArgs d = results)}

/-- The remote algorithm of a run, and the payload that the process of the run binds. -/
theorem exists_payload_of_origin (hplans : FollowsPlans 1 plans (G.submissions s) fun _ => 0)
    (apps : String → Core.Application α O X S) (T : String → JsonPayloadType J α)
    (hagree : ∀ fork ∈ G.remoteAlgorithms, Agree J fork.algorithm
      (apps fork.algorithm.remoteName) (T fork.algorithm.remoteName))
    {run : RemoteRun Nat F C} (hrun : run ∈ s.scheduler.runs) {i k : Nat}
    (horigin : run.origin = some (i, k)) :
    ∃ fork args payloads p, G.remoteAlgorithms[i]? = some fork ∧ G.ResolvedWith i s args ∧
      fork.algorithm.coreRun args = .ok payloads ∧ payloads[k]? = some p ∧
      BindsPayload (apps run.algorithmName) (J.dumps run.algorithmParameters).toUTF8 p := by
  cases hfork : G.remoteAlgorithms[i]? with
  | none =>
    obtain ⟨q, -, -⟩ := hplans.carried run hrun i k horigin
    have habsent : G.algorithm i = .absent := by
      rw [DirectedGraph.algorithm, hfork]
    have hraises (args : RunArgs V) :
        (G.algorithm i).coreRun args = .error (.raised exception "") := by
      rw [habsent]
      rfl
    cases (hraises q.args).symm.trans q.coreRun_eq
  | some fork =>
    have halgorithm := DirectedGraph.algorithm_eq hfork
    have hagree' : Agree J (G.algorithm i) (apps (G.algorithm i).remoteName)
        (T (G.algorithm i).remoteName) := by
      rw [halgorithm]
      exact hagree fork (List.mem_of_getElem? hfork)
    obtain ⟨q, -, p, hp, -, hbinds⟩ := hplans.bindsPayload apps T hrun horigin hagree'
    obtain ⟨call, d, hcall, hreturned, hd⟩ := q.resolves
    refine ⟨fork, q.args, q.payloads, p, rfl, ⟨call, d, hcall, hreturned, ?_⟩, ?_, hp, hbinds⟩
    · rw [hd]
      exact q.args_eq
    · rw [← halgorithm]
      exact q.coreRun_eq

end Payloads

namespace Activation

variable [DecidableEq Obj]

/-- In every run of the application, a run that was created carries a payload of its remote
algorithm, computed from the inputs that the cache resolved for it, to the process of that run; and
no payload is created twice. -/
theorem spawned_runs_bind_payloads {O X S : Type} (A : Activation Obj Val F C V α R)
    (J : JsonModule F) (apps : String → Core.Application α O X S) (T : String → JsonPayloadType J α)
    (hagree : ∀ fork ∈ A.graph.remoteAlgorithms, Agree J fork.algorithm
      (apps fork.algorithm.remoteName) (T fork.algorithm.remoteName))
    (scheduler : Scheduler Nat F C) (hexisting : ∀ run ∈ scheduler.runs, run.origin = none)
    (σ : List (Move V)) :
    let s := (run A.step (A.initial scheduler) σ).graph
    (s.scheduler.runs.filterMap RemoteRun.origin).Nodup ∧
      ∀ run ∈ s.scheduler.runs, ∀ i k, run.origin = some (i, k) →
        ∃ fork args payloads p, A.graph.remoteAlgorithms[i]? = some fork ∧
          A.graph.ResolvedWith i s args ∧ fork.algorithm.coreRun args = .ok payloads ∧
          payloads[k]? = some p ∧
          BindsPayload (apps run.algorithmName) (J.dumps run.algorithmParameters).toUTF8 p := by
  intro s
  obtain ⟨plans, hplans⟩ := exists_plans A hexisting σ
  exact ⟨hplans.distinct, fun run hrun i k horigin =>
    exists_payload_of_origin hplans apps T hagree hrun horigin⟩

end Activation

/-! ### Compressed forecasts -/

def packedForecasts :
    RemoteAlgorithm {t : Json.FloatText // t.valid = true} Unit Unit Int (List String) :=
  { forecasts with
    forceRun := true
    compressor := some identityCompressor
    compressPayload := true }

theorem agree_packedForecasts : Agree utf8Json packedForecasts forecastApplication counterType where
  toJson := agree_forecasts.toJson
  fromJson := agree_forecasts.fromJson
  deserialize := agree_forecasts.deserialize
  envelopes := agree_forecasts.envelopes
  plain h := by cases h
  compressed _ compressor hcompressor := by
    obtain rfl : identityCompressor = compressor := Option.some.inj hcompressor
    refine ⟨fun b => .ok (.bytes b), rfl, fun b c hc => ?_⟩
    rw [Except.ok.inj hc]
  prepares := agree_forecasts.prepares
  payloadType := agree_forecasts.payloadType
  resolves := agree_forecasts.resolves

/-- An application with one remote algorithm, which needs no inputs. -/
def forecasting :
    Activation Bool String {t : Json.FloatText // t.valid = true} Unit Unit Int (List String) where
  graph := {
    inputs := Cache.readerChain
    kwargs := .empty
    asArg := fun _ => .object ()
    remoteAlgorithms := [⟨packedForecasts, []⟩]
    spawnBaseDelaySeconds := 0
    others := [] }
  asyncSpawnEnabled := false
  ownRun := ⟨0, .ok true⟩
  stages := Core.smoothRun
  suspensions := 0

/-- The first forecast is created. -/
def forecastingMoves : List (Activation.Move Unit) :=
  [.main, .main, .graph (.spawner []), .graph (.fork 0 .ends), .graph (.fork 0 .ends),
    .graph (.fork 0 (.creates "run-1" none))]

theorem spawned_runs_bind_payloads_forecasting :
    let s := (run forecasting.step (forecasting.initial ⟨[], List.nodup_nil⟩)
      forecastingMoves).graph
    ∃ run ∈ s.scheduler.runs,
      BindsPayload forecastApplication (utf8Json.dumps run.algorithmParameters).toUTF8 1 := by
  intro s
  obtain ⟨first, hruns, horigin⟩ : ∃ first, s.scheduler.runs = [first] ∧
      first.origin = some (0, 0) := ⟨_, rfl, rfl⟩
  have hfirst : first ∈ s.scheduler.runs := by
    rw [hruns]
    exact List.mem_singleton_self _
  obtain ⟨fork, args, payloads, p, hfork, -, hpayloads, hp, hbinds⟩ :=
    (Activation.spawned_runs_bind_payloads forecasting utf8Json (fun _ => forecastApplication)
      (fun _ => counterType) (fun fork hfork => by
        obtain rfl := List.mem_singleton.mp hfork
        exact agree_packedForecasts) ⟨[], List.nodup_nil⟩ (by simp) forecastingMoves).2
      first hfirst 0 0 horigin
  obtain rfl : ⟨packedForecasts, []⟩ = fork := Option.some.inj hfork
  obtain rfl : [1, 2] = payloads := Except.ok.inj hpayloads
  obtain rfl : 1 = p := Option.some.inj hp
  exact ⟨first, hfirst, hbinds⟩

end NexusSdk.Algorithms
