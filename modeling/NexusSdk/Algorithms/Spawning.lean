import NexusSdk.Algorithms.DirectedGraph
import NexusSdk.Cache.Once
import NexusSdk.Core.ExitStatus

/-! Which remote algorithms have been started, and which of them have finished.  The spawner starts
each one once and ends when all are done; but only without `async_spawn_enabled` does the run of the
algorithm wait for it. -/

namespace NexusSdk.Algorithms

open Lib

variable {Obj Val F C V α R : Type}

namespace DirectedGraph

variable {G : DirectedGraph Obj Val F C V α R} {s s' : State Obj Val F C V α R} {i : Nat}

/-- What the spawner has done by where it stands. -/
def Launched (G : DirectedGraph Obj Val F C V α R) (s : State Obj Val F C V α R) : Prop :=
  match s.spawner with
  | .unspawned => s.started = []
  | .launching index => index < G.remoteAlgorithms.length ∧ s.started = List.range index
  | .waiting => s.started = List.range G.remoteAlgorithms.length
  | .ended _ =>
    s.started = List.range G.remoteAlgorithms.length ∧
      ∀ i < G.remoteAlgorithms.length, s.finished i = true

/-- Every remote algorithm was started exactly once and has finished or failed. -/
def NoForkLost (G : DirectedGraph Obj Val F C V α R) (s : State Obj Val F C V α R) : Prop :=
  ∀ i < G.remoteAlgorithms.length, s.started.count i = 1 ∧ s.finished i = true

theorem noForkLost_of_ended {outcome : Except PyExc (List R)} (h : G.Launched s)
    (hended : s.spawner = .ended outcome) : G.NoForkLost s := by
  rw [Launched, hended] at h
  obtain ⟨hstarted, hfinished⟩ := h
  intro i hi
  rw [hstarted]
  exact ⟨List.count_eq_one_of_mem List.nodup_range (List.mem_range.mpr hi), hfinished i hi⟩

/-! ### Steps -/

theorem startRun_foldl (l : List Nat) :
    (l.foldl G.startRun s).started = s.started ++ l ∧
      (l.foldl G.startRun s).spawner = s.spawner := by
  induction l generalizing s with
  | nil => simp
  | cons i l ih =>
    obtain ⟨hstarted, hspawner⟩ := ih (s := G.startRun s i)
    rw [List.foldl_cons, hstarted, hspawner]
    simp [startRun]

/-- A task that is created has not finished. -/
theorem finished_startRun_foldl {l : List Nat} (h : (l.foldl G.startRun s).finished i = true) :
    s.finished i = true := by
  induction l generalizing s with
  | nil => exact h
  | cons j l ih =>
    have hstart : (G.startRun s j).finished i = true := ih h
    by_cases hij : i = j
    · subst hij
      simp [startRun, State.finished] at hstart
    · simpa [startRun, State.finished, hij] using hstart

theorem finished_launch {index : Nat} (h : (G.launch s index).finished i = true) :
    s.finished i = true := by
  unfold launch at h
  split at h
  · have hstart : ([index].foldl G.startRun s).finished i = true := h
    exact finished_startRun_foldl hstart
  · exact finished_startRun_foldl h

theorem launched_launch {index : Nat} (hindex : index < G.remoteAlgorithms.length)
    (hstarted : s.started = List.range index) : G.Launched (G.launch s index) := by
  unfold launch
  split
  · have hnext : s.started ++ [index] = List.range (index + 1) := by
      rw [hstarted, List.range_succ]
    by_cases hlt : index + 1 < G.remoteAlgorithms.length
    · rw [if_pos hlt]
      exact ⟨hlt, hnext⟩
    · have heq : index + 1 = G.remoteAlgorithms.length := by omega
      rw [if_neg hlt, Launched, ← heq]
      exact hnext
  · obtain ⟨hlist, -⟩ := startRun_foldl (G := G) (s := s)
      (List.range' index (G.remoteAlgorithms.length - index))
    have hsplit := @List.range'_append_1 0 index (G.remoteAlgorithms.length - index)
    rw [Nat.zero_add, Nat.add_sub_cancel' hindex.le] at hsplit
    show _ = List.range G.remoteAlgorithms.length
    rw [hlist, hstarted, List.range_eq_range', List.range_eq_range', hsplit]

theorem launched_stepSpawner (h : G.Launched s) (order : List Nat) :
    G.Launched (G.stepSpawner s order) := by
  unfold stepSpawner
  split
  · next index hspawner =>
    rw [Launched, hspawner] at h
    exact launched_launch h.1 h.2
  · next hspawner =>
    split
    · next hdone =>
      rw [Launched, hspawner] at h
      obtain ⟨hperm, hall⟩ := hdone
      refine ⟨h, fun i hi => ?_⟩
      exact List.all_eq_true.mp hall i (hperm.mem_iff.mpr (List.mem_range.mpr hi))
    · exact h
  · exact h

/-- What the other moves do to the spawner and the tasks. -/
structure Follows (s s' : State Obj Val F C V α R) : Prop where
  started : s'.started = s.started
  spawner : s'.spawner = s.spawner
  finished : ∀ i, s.finished i = true → s'.finished i = true

theorem Follows.refl (s : State Obj Val F C V α R) : Follows s s := ⟨rfl, rfl, fun _ => id⟩

theorem Follows.launched (hs : Follows s s') (h : G.Launched s) : G.Launched s' := by
  unfold Launched at h ⊢
  rw [hs.spawner, hs.started]
  cases hspawner : s.spawner with
  | ended outcome =>
    rw [hspawner] at h
    exact ⟨h.1, fun i hi => hs.finished i (h.2 i hi)⟩
  | unspawned => simpa only [hspawner] using h
  | launching index => simpa only [hspawner] using h
  | waiting => simpa only [hspawner] using h

theorem resume_of_done {fork : Fork Obj F C V α R} {phase : Phase Nat F C V α R}
    {answer : Answer V} {submission : Option (List String × String)} {result : Except PyExc R}
    (hphase : phase = .done submission result) : resume fork s i phase answer = s := by
  subst hphase
  unfold resume RemoteAlgorithm.resume
  cases answer <;> rfl

theorem follows_resume {fork : Fork Obj F C V α R} {phase : Phase Nat F C V α R}
    (hphase : s.phases i = some phase) (answer : Answer V) :
    Follows s (resume fork s i phase answer) := by
  cases hdone : s.finished i with
  | true =>
    obtain ⟨submission, result, rfl⟩ : ∃ submission result, phase = .done submission result := by
      unfold State.finished at hdone
      rw [hphase] at hdone
      cases phase with
      | done submission result => exact ⟨submission, result, rfl⟩
      | _ => cases hdone
    rw [resume_of_done rfl]
    exact .refl s
  | false =>
    unfold resume
    split
    · exact .refl s
    · refine ⟨rfl, rfl, fun j hj => ?_⟩
      have hne : j ≠ i := by
        rintro rfl
        rw [hdone] at hj
        cases hj
      simpa [State.finished, hne] using hj

theorem follows_resumeResolved {fork : Fork Obj F C V α R} {kwargs : RunArgs V}
    (hphase : s.phases i = some (.resolving kwargs)) :
    Follows s (G.resumeResolved fork s i kwargs) := by
  unfold resumeResolved
  split
  · exact follows_resume hphase _
  · exact follows_resume hphase _
  · exact .refl s

variable [DecidableEq Obj]

theorem follows_stepFork (answer : Answer V) : Follows s (G.stepFork s i answer) := by
  unfold stepFork
  split
  · next fork kwargs _ hphase =>
    have hresume : Follows { s with cache := s.cache.step G.inputs (.call i) }
        (G.resumeResolved fork { s with cache := s.cache.step G.inputs (.call i) } i kwargs) :=
      follows_resumeResolved hphase
    exact ⟨hresume.started, hresume.spawner, hresume.finished⟩
  · next hphase => exact follows_resume hphase answer
  · exact .refl s

theorem follows_cache (caller : Cache.Caller) : Follows s (G.step s (.cache caller)) := by
  rw [step]
  split
  · exact .refl s
  · exact ⟨rfl, rfl, fun _ => id⟩

theorem launched_step (h : G.Launched s) (move : Move V) : G.Launched (G.step s move) := by
  cases move with
  | spawner order => exact launched_stepSpawner h order
  | fork i answer => exact (follows_stepFork answer).launched h
  | cache caller => exact (follows_cache caller).launched h

/-- Only its own steps move the spawner. -/
theorem spawner_step_other {move : Move V} (h : ∀ order, move ≠ .spawner order) :
    (G.step s move).spawner = s.spawner := by
  cases move with
  | spawner order => exact absurd rfl (h order)
  | fork i answer => exact (follows_stepFork answer).spawner
  | cache caller => exact (follows_cache caller).spawner

theorem spawner_step (h : ∀ order, (G.stepSpawner s order).spawner = s.spawner) (move : Move V) :
    (G.step s move).spawner = s.spawner := by
  by_cases hmove : ∃ order, move = .spawner order
  · obtain ⟨order, rfl⟩ := hmove
    exact h order
  · exact spawner_step_other fun order heq => hmove ⟨order, heq⟩

theorem ended_step {outcome : Except PyExc (List R)} (h : s.spawner = .ended outcome)
    (move : Move V) : (G.step s move).spawner = .ended outcome := by
  refine (spawner_step (fun order => ?_) move).trans h
  rw [stepSpawner, h]
  exact h

theorem unspawned_step (h : s.spawner = .unspawned) (move : Move V) :
    (G.step s move).spawner = .unspawned := by
  refine (spawner_step (fun order => ?_) move).trans h
  rw [stepSpawner, h]
  exact h

end DirectedGraph

/-! ### The run of the application -/

namespace Activation

variable {A : Activation Obj Val F C V α R} {s : State Obj Val F C V α R}

/-- The run of the algorithm has not come to the spawner, or is past it. -/
def MainSound (A : Activation Obj Val F C V α R) (s : State Obj Val F C V α R) : Prop :=
  match s.main with
  | .starting | .running _ => s.graph.spawner = .unspawned
  | .awaitingSpawner | .finishing (.error _) _ => True
  | .finishing (.ok ()) _ => A.asyncSpawnEnabled = false → A.graph.remoteAlgorithms ≠ [] →
    ∃ outcome, s.graph.spawner = .ended outcome
  | .returned run _ => run = some (.ok ()) → A.asyncSpawnEnabled = false →
    A.graph.remoteAlgorithms ≠ [] → ∃ outcome, s.graph.spawner = .ended outcome

theorem launched_spawn (h : A.graph.Launched s.graph) (hunspawned : s.graph.spawner = .unspawned) :
    A.graph.Launched (A.spawnRemoteAlgorithms s).graph := by
  unfold spawnRemoteAlgorithms
  split
  · exact h
  · next hforks =>
    rw [DirectedGraph.Launched, hunspawned] at h
    refine ⟨?_, h⟩
    rw [List.isEmpty_iff] at hforks
    exact List.length_pos_of_ne_nil hforks

theorem mainSound_spawn : A.MainSound (A.spawnRemoteAlgorithms s) := by
  unfold spawnRemoteAlgorithms
  split
  · next hforks =>
    intro _ hne
    exact absurd (List.isEmpty_iff.mp hforks) hne
  · cases hasync : A.asyncSpawnEnabled with
    | true =>
      intro hsync
      rw [hasync] at hsync
      cases hsync
    | false => trivial

theorem sound_stepMain (h : A.graph.Launched s.graph) (hmain : A.MainSound s) :
    A.graph.Launched (A.stepMain s).graph ∧ A.MainSound (A.stepMain s) := by
  obtain ⟨main, graph⟩ := s
  unfold stepMain
  cases main with
  | starting =>
    dsimp only
    split
    · exact ⟨h, hmain⟩
    · exact ⟨h, fun hrun => by cases hrun⟩
  | running left =>
    cases left with
    | succ left => exact ⟨h, hmain⟩
    | zero =>
      dsimp only
      split
      · exact ⟨launched_spawn h hmain, mainSound_spawn⟩
      · exact ⟨h, trivial⟩
      · exact ⟨h, trivial⟩
  | awaitingSpawner =>
    dsimp only
    split
    · next outcome hended => exact ⟨h, fun _ _ => ⟨_, hended⟩⟩
    · exact ⟨h, trivial⟩
    · exact ⟨h, trivial⟩
  | finishing run left =>
    cases left with
    | succ left =>
      cases run with
      | error e => exact ⟨h, trivial⟩
      | ok _ => exact ⟨h, hmain⟩
    | zero =>
      refine ⟨h, fun hrun => ?_⟩
      cases hrun
      exact hmain
  | returned run outcome => exact ⟨h, hmain⟩

theorem sound_step [DecidableEq Obj] (h : A.graph.Launched s.graph ∧ A.MainSound s)
    (move : Move V) :
    A.graph.Launched (A.step s move).graph ∧ A.MainSound (A.step s move) := by
  cases move with
  | main => exact sound_stepMain h.1 h.2
  | graph move =>
    obtain ⟨main, graph⟩ := s
    obtain ⟨hlaunched, hmain⟩ := h
    cases main with
    | returned run outcome => exact ⟨hlaunched, hmain⟩
    | starting =>
      exact ⟨DirectedGraph.launched_step hlaunched move, DirectedGraph.unspawned_step hmain move⟩
    | running left =>
      exact ⟨DirectedGraph.launched_step hlaunched move, DirectedGraph.unspawned_step hmain move⟩
    | awaitingSpawner => exact ⟨DirectedGraph.launched_step hlaunched move, trivial⟩
    | finishing run left =>
      refine ⟨DirectedGraph.launched_step hlaunched move, ?_⟩
      cases run with
      | error e => trivial
      | ok _ =>
        intro hsync hne
        obtain ⟨outcome, hended⟩ := hmain hsync hne
        exact ⟨outcome, DirectedGraph.ended_step hended move⟩

theorem sound_initial (scheduler : Scheduler Nat F C) :
    A.graph.Launched (A.initial scheduler).graph ∧ A.MainSound (A.initial scheduler) :=
  ⟨rfl, rfl⟩

/-- `activate` has returned normally, and the algorithm succeeded. -/
def Succeeded (s : State Obj Val F C V α R) : Prop := s.main = .returned (some (.ok ())) (.ok ())

theorem noForkLost_of_succeeded [DecidableEq Obj]
    (hsync : A.asyncSpawnEnabled = false ∨ A.graph.remoteAlgorithms = [])
    (scheduler : Scheduler Nat F C) (σ : List (Move V))
    (hsucceeded : Succeeded (run A.step (A.initial scheduler) σ)) :
    A.graph.NoForkLost (run A.step (A.initial scheduler) σ).graph := by
  obtain ⟨hlaunched, hmain⟩ := run_invariant (I := fun s => A.graph.Launched s.graph ∧ A.MainSound s)
    (fun s move h => sound_step h move) (sound_initial scheduler) σ
  rcases List.eq_nil_or_concat A.graph.remoteAlgorithms with hnil | ⟨init, last, hne⟩
  · intro i hi
    rw [hnil] at hi
    exact absurd hi (Nat.not_lt_zero i)
  · rw [List.concat_eq_append] at hne
    have hforks : A.graph.remoteAlgorithms ≠ [] := by simp [hne]
    rw [MainSound, hsucceeded] at hmain
    obtain ⟨outcome, hended⟩ := hmain rfl (hsync.resolve_right hforks) hforks
    exact DirectedGraph.noForkLost_of_ended hlaunched hended

/-- In async mode, `activate` can return after the first step of the spawner. -/
theorem lost_of_async [DecidableEq Obj] (hasync : A.asyncSpawnEnabled = true)
    (hforks : A.graph.remoteAlgorithms ≠ []) (hown : A.ownRun = ⟨0, .ok true⟩)
    (hstages : A.stages = Core.smoothRun) (hsuspensions : A.suspensions = 0)
    (scheduler : Scheduler Nat F C) :
    ∃ σ, Succeeded (run A.step (A.initial scheduler) σ) ∧
      ¬ A.graph.NoForkLost (run A.step (A.initial scheduler) σ).graph := by
  have hstart : A.step (A.initial scheduler) .main =
      ⟨.running 0, A.graph.initial scheduler .unspawned⟩ := by
    have hran : A.stages.TaskRan := by rw [hstages]; decide
    simp only [step, stepMain, initial, if_pos hran, hown]
  have hspawn : A.step ⟨.running 0, A.graph.initial scheduler .unspawned⟩ .main =
      ⟨.finishing (.ok ()) 0, A.graph.initial scheduler (.launching 0)⟩ := by
    have hsome : ¬ A.graph.remoteAlgorithms.isEmpty = true := by rwa [List.isEmpty_iff]
    simp only [step, stepMain, hown, spawnRemoteAlgorithms, if_neg hsome, if_pos hasync,
      hsuspensions]
    rfl
  refine ⟨[.main, .main, .graph (.spawner []), .main], ?_⟩
  rw [run_cons, run_cons, run_cons, run_cons, run_nil, hstart, hspawn]
  refine ⟨?_, fun hlost => ?_⟩
  · simp only [Succeeded, step, stepMain, hstages]
    rfl
  · have hfinished := (hlost 0 (List.length_pos_of_ne_nil hforks)).2
    have hinitial : (A.graph.initial scheduler (.launching 0)).finished 0 = true :=
      DirectedGraph.finished_launch hfinished
    cases hinitial

end Activation

/-- The runs of the application lose no fork, whatever their schedule, exactly if the spawner is
awaited or there is none. -/
theorem no_fork_lost_iff [DecidableEq Obj] (G : DirectedGraph Obj Val F C V α R)
    (asyncSpawnEnabled : Bool) :
    (∀ ownRun stages suspensions scheduler σ,
      let A : Activation Obj Val F C V α R := ⟨G, asyncSpawnEnabled, ownRun, stages, suspensions⟩
      Activation.Succeeded (run A.step (A.initial scheduler) σ) →
        G.NoForkLost (run A.step (A.initial scheduler) σ).graph) ↔
      asyncSpawnEnabled = false ∨ G.remoteAlgorithms = [] := by
  constructor
  · intro h
    by_contra hlost
    rw [not_or, Bool.not_eq_false] at hlost
    obtain ⟨σ, hsucceeded, hlost⟩ := Activation.lost_of_async
      (A := ⟨G, asyncSpawnEnabled, ⟨0, .ok true⟩, Core.smoothRun, 0⟩) hlost.1 hlost.2 rfl rfl rfl
      ⟨[], List.nodup_nil⟩
    exact hlost (h _ _ _ _ σ hsucceeded)
  · intro hsync ownRun stages suspensions scheduler σ A hsucceeded
    exact Activation.noForkLost_of_succeeded hsync scheduler σ hsucceeded

/-- A remote algorithm that submits nothing. -/
def idleAlgorithm : RemoteAlgorithm Unit Unit Unit Unit Unit where
  remoteName := "idle"
  isHardDependency := false
  forceRun := true
  remoteConfig := none
  compressor := none
  compressPayload := false
  algorithmName := "parent"
  dryRun := false
  deserialize := fun _ => .ok .null
  toJson := fun _ => ""
  coreRun := fun _ => .ok []
  generateTag := fun _ => .ok "tag"
  generateTagFromRemotePayload := fun _ _ => .ok none
  generateRemoteConfigFromRemotePayload := fun _ _ => .ok none
  transformSubmissionResult := fun _ _ => .ok ()

/-- Two forks in async mode, the second launched after a delay. -/
def twoForks : Activation Bool String Unit Unit Unit Unit Unit where
  graph := {
    inputs := Cache.readerChain
    kwargs := .empty
    asArg := fun _ => .object ()
    remoteAlgorithms := [⟨idleAlgorithm, []⟩, ⟨idleAlgorithm, []⟩]
    spawnBaseDelaySeconds := 1
    others := [] }
  asyncSpawnEnabled := true
  ownRun := ⟨0, .ok true⟩
  stages := Core.smoothRun
  suspensions := 0

/-- `activate` returns while the spawner sleeps before the second launch. -/
theorem second_fork_never_started :
    let s := run twoForks.step (twoForks.initial ⟨[], List.nodup_nil⟩) [.main, .main,
      .graph (.spawner []), .graph (.fork 0 .ends), .graph (.fork 0 .ends), .main]
    Activation.Succeeded s ∧ s.graph.started = [0] ∧ s.graph.finished 0 = true ∧
      ¬ twoForks.graph.NoForkLost s.graph := by
  intro s
  have hstarted : s.graph.started = [0] := rfl
  refine ⟨rfl, hstarted, rfl, fun hlost => ?_⟩
  have hsecond := (hlost 1 (by decide)).1
  rw [hstarted] at hsecond
  exact absurd hsecond (by decide)

end NexusSdk.Algorithms
