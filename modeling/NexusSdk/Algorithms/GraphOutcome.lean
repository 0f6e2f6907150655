import NexusSdk.Algorithms.GraphResults

/-! How the run of an algorithm ends within `activate`: what its code has returned, and whether its
remote algorithms are done. -/

namespace NexusSdk.Algorithms

open Lib

variable {Obj Val F C V α R D : Type}

namespace GraphRun

variable (A : GraphRun Obj Val F C V α R D)

/-- Why the run of the algorithm has ended as it has. -/
inductive Ended (remoteAlgorithms : List (Fork Obj F C V α R))
    (graph : DirectedGraph.State Obj Val F C V α R) : Except PyExc Unit → Prop
  | raised {e : PyExc} (h : A.code.Produces (Answered graph.cache) (.error e)) :
      Ended remoteAlgorithms graph (.error e)
  | refused {runResult : D} {forks : List (Fork Obj F C V α R)}
      (h : A.code.Produces (Answered graph.cache) (.ok (runResult, forks)))
      (hresult : A.isDirectedGraphResult runResult = false) :
      Ended remoteAlgorithms graph (.error Activation.notADirectedGraphResult)
  | alone {runResult : D} (h : A.code.Produces (Answered graph.cache) (.ok (runResult, [])))
      (hresult : A.isDirectedGraphResult runResult = true) : Ended remoteAlgorithms graph (.ok ())
  | detached {runResult : D}
      (h : A.code.Produces (Answered graph.cache) (.ok (runResult, remoteAlgorithms)))
      (hresult : A.isDirectedGraphResult runResult = true) (hasync : A.asyncSpawnEnabled = true) :
      Ended remoteAlgorithms graph (.ok ())
  | collected {runResult : D} {results : Except PyExc (List R)}
      (h : A.code.Produces (Answered graph.cache) (.ok (runResult, remoteAlgorithms)))
      (hresult : A.isDirectedGraphResult runResult = true)
      (hspawner : graph.spawner = .ended results) :
      Ended remoteAlgorithms graph (results.map fun _ => ())

/-- The run has ended as its code and its remote algorithms have. -/
structure Concludes (s : State Obj Val F C V α R D) : Prop where
  awaiting : s.main = .awaitingSpawner → ∃ runResult, A.isDirectedGraphResult runResult = true ∧
    A.code.Produces (Answered s.graph.cache) (.ok (runResult, s.remoteAlgorithms))
  finishing : ∀ x n, s.main = .finishing x n → A.Ended s.remoteAlgorithms s.graph x
  returned : ∀ r o, s.main = .returned r o →
    r = none ∧ ¬ A.stages.TaskRan ∧ o = (Core.activate A.stages).outcome ∨
      ∃ x, r = some x ∧ A.Ended s.remoteAlgorithms s.graph x ∧
        o = (Core.activate { A.stages with run := x }).outcome

variable {A} {s : State Obj Val F C V α R D} {remoteAlgorithms : List (Fork Obj F C V α R)}
  {graph : DirectedGraph.State Obj Val F C V α R} {x : Except PyExc Unit}

/-- At a stage at which the run has not ended. -/
theorem concludes_of_running (hawaiting : s.main ≠ .awaitingSpawner)
    (hfinishing : ∀ x n, s.main ≠ .finishing x n) (hreturned : ∀ r o, s.main ≠ .returned r o) :
    A.Concludes s where
  awaiting hmain := absurd hmain hawaiting
  finishing x n hmain := absurd hmain (hfinishing x n)
  returned r o hmain := absurd hmain (hreturned r o)

theorem concludes_of_ended {n : Nat} (h : A.Ended s.remoteAlgorithms s.graph x) :
    A.Concludes { s with main := .finishing x n } where
  awaiting hmain := by cases hmain
  finishing x' n' hmain := by
    obtain ⟨rfl, -⟩ := Stage.finishing.inj hmain
    exact h
  returned r o hmain := by cases hmain

section Steps

variable [DecidableEq Obj]

theorem Ended.step (h : A.Ended remoteAlgorithms graph x) {G : DirectedGraph Obj Val F C V α R}
    (move : DirectedGraph.Move V) : A.Ended remoteAlgorithms (G.step graph move) x := by
  have hcache : Remembers graph.cache (G.step graph move).cache := by
    rw [DirectedGraph.cache_step]
    exact remembers_step _
  cases h with
  | raised h => exact .raised (h.mono hcache)
  | refused h hresult => exact .refused (h.mono hcache) hresult
  | alone h hresult => exact .alone (h.mono hcache) hresult
  | detached h hresult hasync => exact .detached (h.mono hcache) hresult hasync
  | collected h hresult hspawner =>
    exact .collected (h.mono hcache) hresult (DirectedGraph.ended_step hspawner move)

theorem Concludes.stepGraph (h : A.Concludes s) {G : DirectedGraph Obj Val F C V α R}
    (move : DirectedGraph.Move V) : A.Concludes { s with graph := G.step s.graph move } where
  awaiting hmain := by
    obtain ⟨runResult, hresult, hproduces⟩ := h.awaiting hmain
    refine ⟨runResult, hresult, hproduces.mono ?_⟩
    dsimp only
    rw [DirectedGraph.cache_step]
    exact remembers_step _
  finishing x n hmain := (h.finishing x n hmain).step move
  returned r o hmain := by
    rcases h.returned r o hmain with hnone | ⟨x, hx, hended, ho⟩
    · exact .inl hnone
    · exact .inr ⟨x, hx, hended.step move, ho⟩

theorem concludes_stepRun {stop : Stop Obj Val F C V α R D} (h : A.Told s)
    (hmain : s.main = .running stop) : A.Concludes (A.stepRun s stop) := by
  have hstops := (h.stops stop hmain).resume (P := A.inputs)
  have hsteps := stepRun_cases (A := A) (s := s) stop
  generalize A.stepRun s stop = s' at hsteps ⊢
  generalize (GraphRun.resume A.inputs s.graph.cache stop).1 = cache at hstops hsteps
  generalize (GraphRun.resume A.inputs s.graph.cache stop).2 = stop' at hstops hsteps
  have hended {n : Nat} {x : Except PyExc Unit}
      (h : A.Ended s.remoteAlgorithms { s.graph with cache } x) :
      A.Concludes { s with main := .finishing x n, graph := { s.graph with cache } } :=
    concludes_of_ended (s := { s with graph := { s.graph with cache } }) h
  cases hsteps with
  | goesOn _ =>
    exact concludes_of_running (fun heq => by cases heq) (fun _ _ heq => by cases heq)
      fun _ _ heq => by cases heq
  | raised =>
    cases hstops with
    | ended hproduces => exact hended (.raised hproduces)
  | refused hresult =>
    cases hstops with
    | ended hproduces => exact hended (.refused hproduces hresult)
  | alone hresult =>
    cases hstops with
    | ended hproduces => exact hended (.alone hproduces hresult)
  | @spawns runResult forks hresult _ =>
    cases hstops with
    | ended hproduces =>
      have hspawned : A.code.Produces (Answered (cache.extend (A.forkCalls forks) []))
          (.ok (runResult, forks)) := hproduces.mono (remembers_extend _)
      cases hasync : A.asyncSpawnEnabled with
      | true =>
        refine ⟨fun heq => (by cases heq), fun x n heq => ?_, fun _ _ heq => (by cases heq)⟩
        obtain ⟨rfl, -⟩ := Stage.finishing.inj heq
        exact .detached hspawned hresult hasync
      | false =>
        exact ⟨fun _ => ⟨runResult, hresult, hspawned⟩, fun _ _ heq => (by cases heq),
          fun _ _ heq => (by cases heq)⟩

theorem Concludes.stepMain (h : A.Concludes s) (htold : A.Told s) :
    A.Concludes (A.stepMain s) := by
  unfold GraphRun.stepMain
  cases hmain : s.main with
  | starting =>
    dsimp only
    split
    · exact concludes_of_running (fun heq => by cases heq) (fun _ _ heq => by cases heq)
        fun _ _ heq => by cases heq
    · next hran =>
      refine ⟨fun heq => (by cases heq), fun _ _ heq => (by cases heq), fun r o heq => .inl ?_⟩
      obtain ⟨rfl, rfl⟩ := Stage.returned.inj heq
      exact ⟨rfl, hran, rfl⟩
  | running stop => exact concludes_stepRun htold hmain
  | awaitingSpawner =>
    obtain ⟨runResult, hresult, hproduces⟩ := h.awaiting hmain
    cases hspawner : s.graph.spawner with
    | ended results =>
      have hended : A.Ended s.remoteAlgorithms s.graph (results.map fun _ => ()) :=
        .collected hproduces hresult hspawner
      cases results with
      | ok results => exact concludes_of_ended hended
      | error e => exact concludes_of_ended hended
    | _ => exact h
  | finishing x left =>
    have hended := h.finishing x left hmain
    cases left with
    | zero =>
      refine ⟨fun heq => (by cases heq), fun _ _ heq => (by cases heq), fun r o heq => .inr ?_⟩
      obtain ⟨rfl, rfl⟩ := Stage.returned.inj heq
      exact ⟨x, rfl, hended, rfl⟩
    | succ left => exact concludes_of_ended hended
  | returned r o => exact h

theorem Concludes.step (h : A.Concludes s) (htold : A.Told s) (move : Activation.Move V) :
    A.Concludes (A.step s move) := by
  cases move with
  | main => exact h.stepMain htold
  | graph move =>
    exact stepGraph_rule h fun _ => h.stepGraph move

theorem concludes_run (A : GraphRun Obj Val F C V α R D) (scheduler : Scheduler Nat F C)
    (σ : List (Activation.Move V)) : A.Concludes (run A.step (A.initial scheduler) σ) :=
  (run_invariant (I := fun s => A.Told s ∧ A.Concludes s)
    (fun _ move h => ⟨h.1.step move, h.2.step h.1 move⟩)
    ⟨told_initial A scheduler, concludes_of_running (fun heq => by cases heq)
      (fun _ _ heq => by cases heq) fun _ _ heq => by cases heq⟩ σ).2

/-- Once the spawner has ended, no remote algorithm is lost. -/
theorem noForkLost_of_spawner (A : GraphRun Obj Val F C V α R D) (scheduler : Scheduler Nat F C)
    (σ : List (Activation.Move V)) :
    let s := run A.step (A.initial scheduler) σ
    ∀ results, s.graph.spawner = .ended results →
      (A.graph s.remoteAlgorithms []).NoForkLost s.graph := by
  intro s results hspawner
  obtain ⟨made, outcome, τ, hτ⟩ := (simulated_run A scheduler σ).reaches
  have hsound := run_invariant
    (I := fun t => (A.activation s.remoteAlgorithms made outcome).graph.Launched t.graph ∧
      (A.activation s.remoteAlgorithms made outcome).MainSound t)
    (fun _ move h => Activation.sound_step h move) (Activation.sound_initial scheduler) τ
  rw [hτ] at hsound
  exact DirectedGraph.noForkLost_of_ended hsound.1 hspawner

/-- In every run of the application, `activate` returns as its stages do with the run that the code
has made: it raised; its result was refused; there was nothing to spawn or await; or every remote
algorithm was started exactly once and is done, and the run ends as their collection does. -/
theorem returned_run_ended (A : GraphRun Obj Val F C V α R D) (scheduler : Scheduler Nat F C)
    (σ : List (Activation.Move V)) :
    let s := run A.step (A.initial scheduler) σ
    (∀ r outcome, s.main = .returned r outcome →
      r = none ∧ ¬ A.stages.TaskRan ∧ outcome = (Core.activate A.stages).outcome ∨
        ∃ x, r = some x ∧ A.Ended s.remoteAlgorithms s.graph x ∧
          outcome = (Core.activate { A.stages with run := x }).outcome) ∧
      ∀ results, s.graph.spawner = .ended results →
        (A.graph s.remoteAlgorithms []).NoForkLost s.graph := by
  intro s
  exact ⟨(concludes_run A scheduler σ).returned, noForkLost_of_spawner A scheduler σ⟩

end Steps

end GraphRun

end NexusSdk.Algorithms
