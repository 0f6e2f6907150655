import NexusSdk.Algorithms.SpawnedRuns
import NexusSdk.Cache.Consistency

/-! The inputs that the remote algorithms of one run of the application are given, and those of the
run itself: the cache shows all of them one snapshot. -/

namespace NexusSdk.Algorithms

open Lib Input

variable {Obj Val F C V α R : Type}

/-- The calls of `resolve`: those of the remote algorithms come first. -/
def DirectedGraph.resolveCalls (G : DirectedGraph Obj Val F C V α R) :
    List (List Obj × Cache.Kwargs Val) :=
  (G.remoteAlgorithms.map fun fork => (fork.inputProcessors, G.kwargs)) ++ G.others

namespace Activation

variable [DecidableEq Obj]

/-- The cache of a run of the application has made a run of its own. -/
theorem exists_cache_exec (A : Activation Obj Val F C V α R) (scheduler : Scheduler Nat F C)
    (σ : List (Move V)) : ∃ τ, (run A.step (A.initial scheduler) σ).graph.cache =
      Cache.exec A.graph.inputs A.graph.resolveCalls τ := by
  induction σ using List.reverseRecOn with
  | nil => exact ⟨[], rfl⟩
  | append_singleton σ move ih =>
    obtain ⟨τ, hτ⟩ := ih
    rw [run_append, run_cons, run_nil]
    rcases graph_step (run A.step (A.initial scheduler) σ) move with ⟨spawner, hgraph⟩ |
      ⟨move', hgraph⟩
    · refine ⟨τ, ?_⟩
      rw [hgraph]
      exact hτ
    · refine ⟨τ ++ [A.graph.callerOf (run A.step (A.initial scheduler) σ).graph move'], ?_⟩
      rw [hgraph, DirectedGraph.cache_step, hτ, Cache.exec, Cache.exec, run_append]
      rfl

/-- The calls of the remote algorithms ask for their inputs. -/
theorem made_of_fork (A : Activation Obj Val F C V α R) (scheduler : Scheduler Nat F C)
    (σ : List (Move V)) {i : Nat} {fork : Fork Obj F C V α R} {call : Cache.Call Obj Val}
    (hfork : A.graph.remoteAlgorithms[i]? = some fork)
    (hcall : (run A.step (A.initial scheduler) σ).graph.cache.calls[i]? = some call) :
    call.made = (fork.inputProcessors, A.graph.kwargs) := by
  obtain ⟨τ, hτ⟩ := exists_cache_exec A scheduler σ
  have hcalls := Cache.made_exec A.graph.inputs A.graph.resolveCalls τ
  rw [← hτ] at hcalls
  have hown : A.graph.resolveCalls[i]? = some (fork.inputProcessors, A.graph.kwargs) := by
    rw [DirectedGraph.resolveCalls, List.getElem?_append_left, List.getElem?_map, hfork]
    · rfl
    · rw [List.length_map]
      exact (List.getElem?_eq_some_iff.mp hfork).1
  rw [← hcalls, List.getElem?_map, hcall] at hown
  exact Option.some.inj hown

/-- The snapshot that the cache shows to all callers, and what the code of a remote algorithm gets
of it. -/
theorem exists_snapshot (A : Activation Obj Val F C V α R)
    (hdistinct : Cache.DistinctArgs A.graph.inputs A.graph.resolveCalls)
    (scheduler : Scheduler Nat F C) (σ : List (Move V)) :
    let s := (run A.step (A.initial scheduler) σ).graph
    (∀ c args d, .returned c args d ∈ s.cache.history →
        d = Cache.named A.graph.inputs s.cache.data args) ∧
      ∀ i fork args, A.graph.remoteAlgorithms[i]? = some fork → A.graph.ResolvedWith i s args →
        measuredArgs (A.graph.toArgs A.graph.kwargs) (A.graph.toArgs
          (Cache.named A.graph.inputs s.cache.data fork.inputProcessors)) = .ok args := by
  intro s
  obtain ⟨τ, hτ⟩ := exists_cache_exec A scheduler σ
  have hcache : Cache.Consistent A.graph.inputs s.cache := by
    rw [hτ]
    exact Cache.consistent_exec (hdistinct.along τ)
  refine ⟨hcache.returned, fun i fork args hfork hresolved => ?_⟩
  obtain ⟨call, d, hcall, hreturned, hargs⟩ := hresolved
  have hprocessors : call.args = fork.inputProcessors :=
    congrArg Prod.fst (made_of_fork A scheduler σ hfork hcall)
  rw [← hprocessors, ← hcache.returned _ _ _ (hcache.calls i call d hcall hreturned)]
  exact hargs

/-- In every run of the application in which no call of `resolve` can list an object twice, there is
one snapshot of the inputs, whatever their hooks do: the calls of `resolve` of the run itself and of
its remote algorithms return its values, and the payload that the process of a created run binds was
computed from them. -/
theorem spawned_runs_share_snapshot {O X S : Type} (A : Activation Obj Val F C V α R)
    (J : JsonModule F) (apps : String → Core.Application α O X S) (T : String → JsonPayloadType J α)
    (hagree : ∀ fork ∈ A.graph.remoteAlgorithms, Agree J fork.algorithm
      (apps fork.algorithm.remoteName) (T fork.algorithm.remoteName))
    (hdistinct : Cache.DistinctArgs A.graph.inputs A.graph.resolveCalls)
    (scheduler : Scheduler Nat F C) (hexisting : ∀ run ∈ scheduler.runs, run.origin = none)
    (σ : List (Move V)) :
    let s := (run A.step (A.initial scheduler) σ).graph
    ∃ value : Obj → Option Val,
      (∀ c args d, .returned c args d ∈ s.cache.history →
        d = Cache.named A.graph.inputs value args) ∧
      ∀ run ∈ s.scheduler.runs, ∀ i k, run.origin = some (i, k) →
        ∃ fork args payloads p, A.graph.remoteAlgorithms[i]? = some fork ∧
          measuredArgs (A.graph.toArgs A.graph.kwargs) (A.graph.toArgs
            (Cache.named A.graph.inputs value fork.inputProcessors)) = .ok args ∧
          fork.algorithm.coreRun args = .ok payloads ∧ payloads[k]? = some p ∧
          BindsPayload (apps run.algorithmName) (J.dumps run.algorithmParameters).toUTF8 p := by
  intro s
  obtain ⟨hreturned, hargs⟩ := exists_snapshot A hdistinct scheduler σ
  obtain ⟨plans, hplans⟩ := exists_plans A hexisting σ
  refine ⟨s.cache.data, hreturned, fun run hrun i k horigin => ?_⟩
  obtain ⟨fork, args, payloads, p, hfork, hresolved, hrest⟩ :=
    exists_payload_of_origin hplans apps T hagree hrun horigin
  exact ⟨fork, args, payloads, p, hfork, hargs i fork args hfork hresolved, hrest⟩

end Activation

theorem distinctArgs_forecasting :
    Cache.DistinctArgs forecasting.graph.inputs forecasting.graph.resolveCalls where
  readers := by decide
  calls call hcall := by
    obtain rfl := List.mem_singleton.mp hcall
    exact List.nodup_nil

theorem spawned_runs_share_snapshot_forecasting :
    let s := (run forecasting.step (forecasting.initial ⟨[], List.nodup_nil⟩)
      forecastingMoves).graph
    ∃ value : Bool → Option String,
      (∀ c args d, .returned c args d ∈ s.cache.history →
        d = Cache.named Cache.readerChain value args) ∧
      ∀ run ∈ s.scheduler.runs, ∀ i k, run.origin = some (i, k) →
        ∃ fork args payloads p, forecasting.graph.remoteAlgorithms[i]? = some fork ∧
          measuredArgs (forecasting.graph.toArgs forecasting.graph.kwargs)
            (forecasting.graph.toArgs
              (Cache.named Cache.readerChain value fork.inputProcessors)) = .ok args ∧
          fork.algorithm.coreRun args = .ok payloads ∧ payloads[k]? = some p ∧
          BindsPayload forecastApplication (utf8Json.dumps run.algorithmParameters).toUTF8 p :=
  Activation.spawned_runs_share_snapshot forecasting utf8Json (fun _ => forecastApplication)
    (fun _ => counterType) (fun fork hfork => by
      obtain rfl := List.mem_singleton.mp hfork
      exact agree_packedForecasts) distinctArgs_forecasting ⟨[], List.nodup_nil⟩ (by simp)
    forecastingMoves

end NexusSdk.Algorithms
