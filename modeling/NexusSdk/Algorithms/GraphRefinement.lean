import NexusSdk.Algorithms.GraphRun

/-! A run of the application with the code of its algorithm is one in which the remote algorithms
are given: those that the code is going to return, with the calls of `resolve` that it is going to
make. -/

namespace NexusSdk.Algorithms

open Lib

variable {Obj Val F C V α R D : Type}

namespace GraphRun

section Code

variable [DecidableEq Obj] {P : Cache.Inputs Obj Val} {cache cache' : Cache.State Obj Val}
  {before : List (Cache.Call Obj Val)} {later : List (List Obj × Cache.Kwargs Val)}

omit [DecidableEq Obj] in
/-- The next call, among those that are not made yet and as one that exists. -/
theorem extend_unmade (request : List Obj × Cache.Kwargs Val) :
    cache.extend before ((request :: later).map .unmade) =
      { cache with calls := cache.calls ++ [Cache.Call.unmade request] }.extend before
        (later.map .unmade) := by
  simp only [Cache.State.extend, List.map_cons, List.append_assoc, List.singleton_append]

theorem length_step (c : Cache.Caller) :
    (cache.step P c).calls.length = cache.calls.length := by
  have h := congrArg List.length (Cache.State.made_step (P := P) (s := cache) (c := c))
  rwa [List.length_map, List.length_map] at h

/-- The steps of the cache within a step of the code: those of calls that the code makes. -/
structure MakesCalls (P : Cache.Inputs Obj Val) (cache cache' : Cache.State Obj Val)
    (made : List (List Obj × Cache.Kwargs Val)) : Prop where
  length : cache.calls.length ≤ cache'.calls.length
  steps : ∀ before later, ∃ σ : List Nat,
    run (Cache.State.step P) (cache.extend before ((made ++ later).map .unmade))
        (σ.map fun i => .call (before.length + i)) =
      cache'.extend before (later.map .unmade)

theorem MakesCalls.refl : MakesCalls P cache cache [] where
  length := le_rfl
  steps _ _ := ⟨[], rfl⟩

theorem MakesCalls.trans {cache'' : Cache.State Obj Val}
    {made made' : List (List Obj × Cache.Kwargs Val)} (h : MakesCalls P cache cache' made)
    (h' : MakesCalls P cache' cache'' made') : MakesCalls P cache cache'' (made ++ made') where
  length := h.length.trans h'.length
  steps before later := by
    obtain ⟨σ, hσ⟩ := h.steps before (made' ++ later)
    obtain ⟨σ', hσ'⟩ := h'.steps before later
    refine ⟨σ ++ σ', ?_⟩
    rw [List.append_assoc]
    refine (congrArg _ List.map_append).trans ?_
    rw [run_append, hσ, hσ']

theorem MakesCalls.ofStep {i : Nat} (hi : i < cache.calls.length) :
    MakesCalls P cache (cache.step P (.call i)) [] where
  length := (length_step _).ge
  steps _ _ := ⟨[i], Cache.State.extend_step (c := .call i) hi⟩

/-- What a request does in the cache. -/
inductive Asks (P : Cache.Inputs Obj Val) (cache : Cache.State Obj Val)
    (request : List Obj × Cache.Kwargs Val) :
    Cache.State Obj Val × (Nat ⊕ Except PyExc (Cache.Kwargs Val)) → Prop
  | awaits {cache' : Cache.State Obj Val}
      (heq : cache' = { cache with calls := cache.calls ++ [Cache.Call.unmade request] }.step P
        (.call cache.calls.length)) :
      Asks P cache request (cache', .inl cache.calls.length)
  | answers {cache' : Cache.State Obj Val} {a : Except PyExc (Cache.Kwargs Val)}
      (heq : cache' = { cache with calls := cache.calls ++ [Cache.Call.unmade request] }.step P
        (.call cache.calls.length))
      (ha : answer? cache' cache.calls.length = some a) :
      Asks P cache request (cache', .inr a)

theorem asks_of_eq {request : List Obj × Cache.Kwargs Val}
    {answer : Nat ⊕ Except PyExc (Cache.Kwargs Val)} (h : ask P cache request = (cache', answer)) :
    Asks P cache request (cache', answer) := by
  rw [← h]
  unfold ask
  dsimp only
  split
  · next ha => exact .answers rfl ha
  · exact .awaits rfl

theorem Asks.cache_eq {request : List Obj × Cache.Kwargs Val}
    {answer : Nat ⊕ Except PyExc (Cache.Kwargs Val)} (h : Asks P cache request (cache', answer)) :
    cache' = { cache with calls := cache.calls ++ [Cache.Call.unmade request] }.step P
      (.call cache.calls.length) := by
  cases h with
  | awaits heq => exact heq
  | answers heq _ => exact heq

theorem Asks.makesCalls {request : List Obj × Cache.Kwargs Val}
    {answer : Nat ⊕ Except PyExc (Cache.Kwargs Val)} (h : Asks P cache request (cache', answer)) :
    MakesCalls P cache cache' [request] ∧ cache.calls.length < cache'.calls.length := by
  have hlength : cache.calls.length <
      { cache with calls := cache.calls ++ [Cache.Call.unmade request] }.calls.length := by
    simp
  obtain rfl := h.cache_eq
  rw [length_step]
  refine ⟨⟨?_, fun before later => ⟨[cache.calls.length], ?_⟩⟩, hlength⟩
  · rw [length_step]
    exact hlength.le
  · rw [List.singleton_append, extend_unmade]
    exact Cache.State.extend_step (c := .call cache.calls.length) hlength

/-- A call that the code awaits exists. -/
def Awaited (cache : Cache.State Obj Val) (stop : Stop Obj Val F C V α R D) : Prop :=
  ∀ i rest, stop = .awaiting i rest → i < cache.calls.length

theorem makesCalls_goOn (code : AlgorithmCode Obj Val (D × List (Fork Obj F C V α R)))
    (cache : Cache.State Obj Val) :
    (∃ made, MakesCalls P cache (code.goOn (ask P) cache).1 made) ∧
      Awaited (code.goOn (ask P) cache).1 (code.goOn (ask P) cache).2 := by
  refine Coroutine.goOn_induction (I := fun _ cache' => ∃ made, MakesCalls P cache cache' made)
    (R := fun r => (∃ made, MakesCalls P cache r.1 made) ∧ Awaited r.1 r.2)
    (fun outcome cache' h => ⟨h, fun i rest heq => by cases heq⟩)
    (fun rest cache' h => ⟨h, fun i rest heq => by cases heq⟩)
    (fun request rest cache' cache'' token h hask => ?_)
    (fun request rest cache' cache'' a h hask => ?_) ⟨[], .refl⟩
  · obtain ⟨made, hmade⟩ := h
    have hasks := asks_of_eq hask
    refine ⟨⟨_, hmade.trans hasks.makesCalls.1⟩, fun i rest' heq => ?_⟩
    obtain ⟨rfl, -⟩ := Coroutine.Stop.awaiting.inj heq
    have hlength := hasks.makesCalls.2
    cases hasks
    exact hlength
  · obtain ⟨made, hmade⟩ := h
    exact ⟨_, hmade.trans (asks_of_eq hask).makesCalls.1⟩

/-- What a step of the code does in the cache. -/
theorem makesCalls_resume {stop : Stop Obj Val F C V α R D} (h : Awaited cache stop) :
    (∃ made, MakesCalls P cache (resume P cache stop).1 made) ∧
      Awaited (resume P cache stop).1 (resume P cache stop).2 := by
  cases stop with
  | ended outcome => exact ⟨⟨[], .refl⟩, fun i rest heq => by cases heq⟩
  | suspended rest => exact makesCalls_goOn rest cache
  | awaiting i rest =>
    have hstep := MakesCalls.ofStep (P := P) (h i rest rfl)
    unfold resume
    dsimp only
    split
    · next a _ =>
      obtain ⟨⟨made, hmade⟩, hawaited⟩ :=
        makesCalls_goOn (P := P) (rest a) (cache.step P (.call i))
      exact ⟨⟨_, hstep.trans hmade⟩, hawaited⟩
    · refine ⟨⟨[], hstep⟩, fun j rest' heq => ?_⟩
      obtain ⟨rfl, -⟩ := Coroutine.Stop.awaiting.inj heq
      rw [length_step]
      exact h i rest rfl

end Code

/-! ### Steps of the run -/

section Steps

variable [DecidableEq Obj] {A : GraphRun Obj Val F C V α R D} {s : State Obj Val F C V α R D}

/-- What a step of the code makes of the state, by where the code stops and with the cache that it
leaves. -/
inductive RunSteps (A : GraphRun Obj Val F C V α R D) (s : State Obj Val F C V α R D)
    (cache : Cache.State Obj Val) : Stop Obj Val F C V α R D → State Obj Val F C V α R D → Prop
  | goesOn {stop : Stop Obj Val F C V α R D} (hopen : ∀ outcome, stop ≠ .ended outcome) :
      RunSteps A s cache stop { s with main := .running stop, graph := { s.graph with cache } }
  | raised {e : PyExc} : RunSteps A s cache (.ended (.error e))
      { s with main := .finishing (.error e) A.suspensions, graph := { s.graph with cache } }
  | refused {runResult : D} {forks : List (Fork Obj F C V α R)}
      (hresult : A.isDirectedGraphResult runResult = false) :
      RunSteps A s cache (.ended (.ok (runResult, forks)))
        { s with
          main := .finishing (.error Activation.notADirectedGraphResult) A.suspensions
          graph := { s.graph with cache } }
  | alone {runResult : D} (hresult : A.isDirectedGraphResult runResult = true) :
      RunSteps A s cache (.ended (.ok (runResult, [])))
        { s with main := .finishing (.ok ()) A.suspensions, graph := { s.graph with cache } }
  | spawns {runResult : D} {forks : List (Fork Obj F C V α R)}
      (hresult : A.isDirectedGraphResult runResult = true) (hforks : ¬ forks.isEmpty = true) :
      RunSteps A s cache (.ended (.ok (runResult, forks)))
        { main :=
            if A.asyncSpawnEnabled then .finishing (.ok ()) A.suspensions else .awaitingSpawner
          remoteAlgorithms := forks
          graph :=
            { s.graph with
              cache := cache.extend (A.forkCalls forks) []
              spawner := .launching 0 } }

theorem stepRun_cases (stop : Stop Obj Val F C V α R D) :
    RunSteps A s (resume A.inputs s.graph.cache stop).1 (resume A.inputs s.graph.cache stop).2
      (A.stepRun s stop) := by
  unfold stepRun
  rcases resume A.inputs s.graph.cache stop with ⟨cache, stop'⟩
  dsimp only
  cases stop' with
  | suspended rest => exact .goesOn fun outcome heq => by cases heq
  | awaiting i rest => exact .goesOn fun outcome heq => by cases heq
  | ended outcome =>
    cases outcome with
    | error e => exact .raised
    | ok result =>
      obtain ⟨runResult, forks⟩ := result
      dsimp only
      unfold spawnRemoteAlgorithms
      split
      · next hresult =>
        split
        · next hnone =>
          obtain rfl := List.isEmpty_iff.mp hnone
          exact .alone hresult
        · next hforks => exact .spawns hresult hforks
      · next hresult => exact .refused (Bool.eq_false_iff.mpr hresult)

theorem step_graph_of_open (hmain : ∀ r o, s.main ≠ .returned r o) (move : DirectedGraph.Move V) :
    A.step s (.graph move) = if A.ownedByCode s move then s
      else { s with graph := (A.graph s.remoteAlgorithms []).step s.graph move } := by
  rw [GraphRun.step]
  split
  · next hreturned => exact absurd hreturned (hmain _ _)
  · rfl

/-- A step of the graph is one of the spawner, of a remote algorithm or of the cache, or none. -/
theorem stepGraph_rule {Q : State Obj Val F C V α R D → Prop} {move : DirectedGraph.Move V}
    (hsame : Q s) (hstep : (∀ r o, s.main ≠ .returned r o) →
      Q { s with graph := (A.graph s.remoteAlgorithms []).step s.graph move }) :
    Q (A.step s (.graph move)) := by
  by_cases hreturned : ∃ r o, s.main = .returned r o
  · obtain ⟨r, o, hmain⟩ := hreturned
    simpa only [GraphRun.step, hmain] using hsame
  · have hmain : ∀ r o, s.main ≠ .returned r o := fun r o hmain => hreturned ⟨r, o, hmain⟩
    rw [step_graph_of_open hmain]
    split
    · exact hsame
    · exact hstep hmain

end Steps

/-! ### The simulation -/

section Simulation

variable (A : GraphRun Obj Val F C V α R D)

/-- The stage of `activate`, with the code as one that does not suspend. -/
def Stage.toMain : Stage Obj Val F C V α R D → MainStage
  | .starting => .starting
  | .running _ => .running 0
  | .awaitingSpawner => .awaitingSpawner
  | .finishing run left => .finishing run left
  | .returned run outcome => .returned run outcome

/-- The code of the algorithm has not ended. -/
def Stage.early : Stage Obj Val F C V α R D → Bool
  | .starting | .running _ => true
  | _ => false

/-- The application with given remote algorithms, calls of `resolve` and outcome of the run. -/
def activation (remoteAlgorithms : List (Fork Obj F C V α R))
    (made : List (List Obj × Cache.Kwargs Val)) (outcome : Except PyExc Bool) :
    Activation Obj Val F C V α R where
  graph := A.graph remoteAlgorithms made
  asyncSpawnEnabled := A.asyncSpawnEnabled
  ownRun := ⟨0, outcome⟩
  stages := A.stages
  suspensions := A.suspensions

variable [DecidableEq Obj]

/-- The state is reached with the given remote algorithms, calls and outcome. -/
def Reaches (scheduler : Scheduler Nat F C) (remoteAlgorithms : List (Fork Obj F C V α R))
    (made : List (List Obj × Cache.Kwargs Val)) (outcome : Except PyExc Bool)
    (s : Activation.State Obj Val F C V α R) : Prop :=
  ∃ τ, run (A.activation remoteAlgorithms made outcome).step
    ((A.activation remoteAlgorithms made outcome).initial scheduler) τ = s

/-- The state with calls that are made later, and the calls of the remote algorithms. -/
def withCalls (s : State Obj Val F C V α R D) (remoteAlgorithms : List (Fork Obj F C V α R))
    (later : List (List Obj × Cache.Kwargs Val)) : Activation.State Obj Val F C V α R where
  main := s.main.toMain
  graph :=
    { s.graph with
      cache := s.graph.cache.extend (A.forkCalls remoteAlgorithms) (later.map .unmade) }

/-- Up to its end, the code may still return any remote algorithms and make any calls. -/
structure Early (scheduler : Scheduler Nat F C) (s : State Obj Val F C V α R D) : Prop where
  remoteAlgorithms : s.remoteAlgorithms = []
  spawner : s.graph.spawner = .unspawned
  others : A.others.length ≤ s.graph.cache.calls.length
  awaited : ∀ stop, s.main = .running stop → Awaited s.graph.cache stop
  reaches : ∃ made, ∀ remoteAlgorithms later outcome,
    A.Reaches scheduler remoteAlgorithms (made ++ later) outcome
      (A.withCalls s remoteAlgorithms later)

def Simulated (scheduler : Scheduler Nat F C) (s : State Obj Val F C V α R D) : Prop :=
  (s.main.early = true → A.Early scheduler s) ∧
    (s.main.early = false → ∃ made outcome,
      A.Reaches scheduler s.remoteAlgorithms made outcome ⟨s.main.toMain, s.graph⟩)

variable {A} {scheduler : Scheduler Nat F C} {s : State Obj Val F C V α R D}
  {remoteAlgorithms : List (Fork Obj F C V α R)} {made : List (List Obj × Cache.Kwargs Val)}
  {outcome : Except PyExc Bool}

theorem Reaches.step {a : Activation.State Obj Val F C V α R}
    (h : A.Reaches scheduler remoteAlgorithms made outcome a) (move : Activation.Move V) :
    A.Reaches scheduler remoteAlgorithms made outcome
      ((A.activation remoteAlgorithms made outcome).step a move) := by
  obtain ⟨τ, rfl⟩ := h
  exact ⟨τ ++ [move], run_append _ _ _⟩

theorem step_graph {B : Activation Obj Val F C V α R} {a : Activation.State Obj Val F C V α R}
    (hmain : ∀ r o, a.main ≠ .returned r o) (move : DirectedGraph.Move V) :
    B.step a (.graph move) = { a with graph := B.graph.step a.graph move } := by
  rw [Activation.step]
  split
  · next hreturned => exact absurd hreturned (hmain _ _)
  · rfl

theorem step_cache {G : DirectedGraph Obj Val F C V α R}
    {graph : DirectedGraph.State Obj Val F C V α R} {c : Cache.Caller}
    (howned : G.ownedByFork c = false) :
    G.step graph (.cache c) = { graph with cache := graph.cache.step G.inputs c } :=
  if_neg (Bool.eq_false_iff.mp howned)

/-- Steps of calls that no remote algorithm makes. -/
theorem Reaches.calls {a : Activation.State Obj Val F C V α R}
    (h : A.Reaches scheduler remoteAlgorithms made outcome a)
    (hmain : ∀ r o, a.main ≠ .returned r o) (σ : List Nat) :
    A.Reaches scheduler remoteAlgorithms made outcome
      { a with graph := { a.graph with
        cache := run (Cache.State.step A.inputs) a.graph.cache
          (σ.map fun i => .call (remoteAlgorithms.length + i)) } } := by
  induction σ generalizing a with
  | nil => exact h
  | cons i σ ih =>
    have hstep := h.step (.graph (.cache (.call (remoteAlgorithms.length + i))))
    have heq : (A.activation remoteAlgorithms made outcome).step a
        (.graph (.cache (.call (remoteAlgorithms.length + i)))) =
        { a with graph := { a.graph with
          cache := a.graph.cache.step A.inputs (.call (remoteAlgorithms.length + i)) } } := by
      rw [step_graph hmain, step_cache]
      · rfl
      · exact decide_eq_false (Nat.not_lt.mpr (Nat.le_add_right _ _))
    rw [heq] at hstep
    exact ih hstep hmain

/-- The steps of the cache within a step of the code. -/
theorem Early.reaches_resume (h : A.Early scheduler s) {stop : Stop Obj Val F C V α R D}
    (hmain : s.main = .running stop) :
    ∃ made, ∀ remoteAlgorithms later outcome,
      A.Reaches scheduler remoteAlgorithms (made ++ later) outcome
        ⟨.running 0, { s.graph with
          cache := (resume A.inputs s.graph.cache stop).1.extend (A.forkCalls remoteAlgorithms)
            (later.map .unmade) }⟩ := by
  obtain ⟨made', hmade'⟩ := (makesCalls_resume (P := A.inputs) (h.awaited stop hmain)).1
  obtain ⟨made, hreaches⟩ := h.reaches
  refine ⟨made ++ made', fun remoteAlgorithms later outcome => ?_⟩
  obtain ⟨σ, hσ⟩ := hmade'.steps (A.forkCalls remoteAlgorithms) later
  have hbefore := hreaches remoteAlgorithms (made' ++ later) outcome
  rw [← List.append_assoc, withCalls, hmain] at hbefore
  have hafter := hbefore.calls (fun r o heq => by cases heq) σ
  rw [forkCalls, List.length_map] at hσ
  dsimp only at hafter
  rw [forkCalls, hσ] at hafter
  exact hafter

/-- A step of the code that does not end it. -/
theorem Early.running (h : A.Early scheduler s) {stop : Stop Obj Val F C V α R D}
    (hmain : s.main = .running stop) :
    A.Early scheduler
      { s with
        main := .running (resume A.inputs s.graph.cache stop).2
        graph := { s.graph with cache := (resume A.inputs s.graph.cache stop).1 } } := by
  obtain ⟨⟨made, hmade⟩, hawaited⟩ := makesCalls_resume (P := A.inputs) (h.awaited stop hmain)
  refine ⟨h.remoteAlgorithms, h.spawner, h.others.trans hmade.length, fun stop' heq => ?_,
    h.reaches_resume hmain⟩
  obtain rfl := Stage.running.inj heq
  exact hawaited

/-- The end of the code: with its outcome, the run of the application goes on as it does. -/
theorem Early.stepRun (h : A.Early scheduler s) {stop : Stop Obj Val F C V α R D}
    (hmain : s.main = .running stop) : A.Simulated scheduler (A.stepRun s stop) := by
  have hrunning := h.running hmain
  obtain ⟨made, hreaches⟩ := h.reaches_resume hmain
  have hsteps := stepRun_cases (A := A) (s := s) stop
  generalize A.stepRun s stop = s' at hsteps ⊢
  generalize (resume A.inputs s.graph.cache stop).1 = cache at hrunning hreaches hsteps
  generalize (resume A.inputs s.graph.cache stop).2 = stop' at hrunning hsteps
  have hnone : s.remoteAlgorithms = [] := h.remoteAlgorithms
  -- without remote algorithms, no calls were added
  have hplain (outcome : Except PyExc Bool) : A.Reaches scheduler s.remoteAlgorithms made outcome
      ⟨.running 0, { s.graph with cache }⟩ := by
    have hreached := hreaches [] [] outcome
    rw [List.append_nil] at hreached
    rw [hnone]
    rwa [show A.forkCalls [] = [] from rfl, List.map_nil, Cache.State.extend_nil] at hreached
  cases hsteps with
  | goesOn _ => exact ⟨fun _ => hrunning, fun hlate => by cases hlate⟩
  | @raised e =>
    exact ⟨fun hearly => (by cases hearly), fun _ => ⟨made, _, (hplain (.error e)).step .main⟩⟩
  | refused _ =>
    exact ⟨fun hearly => (by cases hearly), fun _ => ⟨made, _, (hplain (.ok false)).step .main⟩⟩
  | alone _ =>
    refine ⟨fun hearly => (by cases hearly), fun _ => ⟨made, .ok true, ?_⟩⟩
    have hstep := (hplain (.ok true)).step .main
    dsimp only
    rw [hnone] at hstep ⊢
    exact hstep
  | @spawns runResult forks hresult hforks =>
    have hstep := (hreaches forks [] (.ok true)).step .main
    have hspawn : (A.activation forks (made ++ []) (.ok true)).step
        ⟨.running 0, { s.graph with
          cache := cache.extend (A.forkCalls forks) (List.map .unmade []) }⟩ .main =
        { main := if A.asyncSpawnEnabled then .finishing (.ok ()) A.suspensions
            else .awaitingSpawner
          graph := { s.graph with
            cache := cache.extend (A.forkCalls forks) []
            spawner := .launching 0 } } :=
      if_neg hforks
    rw [hspawn] at hstep
    cases hasync : A.asyncSpawnEnabled with
    | true =>
      rw [hasync] at hstep
      exact ⟨fun hearly => (by cases hearly), fun _ => ⟨_, _, hstep⟩⟩
    | false =>
      rw [hasync] at hstep
      exact ⟨fun hearly => (by cases hearly), fun _ => ⟨_, _, hstep⟩⟩

/-- The task of the algorithm is created, or there is none. -/
theorem Early.start (h : A.Early scheduler s) (hmain : s.main = .starting) :
    A.Simulated scheduler (A.stepMain s) := by
  obtain ⟨made, hreaches⟩ := h.reaches
  unfold stepMain
  rw [hmain]
  dsimp only
  by_cases hran : A.stages.TaskRan
  · rw [if_pos hran]
    refine ⟨fun _ => ⟨h.remoteAlgorithms, h.spawner, h.others, fun stop heq => ?_, made,
      fun remoteAlgorithms later outcome => ?_⟩, fun hlate => by cases hlate⟩
    · obtain rfl := Stage.running.inj heq
      exact fun i rest hawaiting => by cases hawaiting
    · have hstep := (hreaches remoteAlgorithms later outcome).step .main
      have hrunning : (A.activation remoteAlgorithms (made ++ later) outcome).step
          (A.withCalls s remoteAlgorithms later) .main =
          ⟨.running 0, (A.withCalls s remoteAlgorithms later).graph⟩ := by
        rw [withCalls, hmain]
        exact if_pos hran
      rwa [hrunning] at hstep
  · rw [if_neg hran]
    refine ⟨fun hearly => (by cases hearly), fun _ => ⟨made ++ [], .ok true, ?_⟩⟩
    have hstep := (hreaches [] [] (.ok true)).step .main
    have hreturned : (A.activation [] (made ++ []) (.ok true)).step (A.withCalls s [] []) .main =
        ⟨.returned none (Core.activate A.stages).outcome, s.graph⟩ := by
      rw [withCalls, hmain, show A.forkCalls [] = [] from rfl, List.map_nil,
        Cache.State.extend_nil]
      exact if_neg hran
    rw [hreturned] at hstep
    dsimp only
    rw [h.remoteAlgorithms]
    exact hstep

omit [DecidableEq Obj] in
theorem Stage.not_returned_of_early (h : s.main.early = true) (r : Option (Except PyExc Unit))
    (o : Except Core.Exit Unit) : s.main ≠ .returned r o := by
  intro hmain
  rw [hmain] at h
  cases h

omit [DecidableEq Obj] in
theorem Stage.toMain_ne_returned (h : ∀ r o, s.main ≠ .returned r o)
    (r : Option (Except PyExc Unit)) (o : Except Core.Exit Unit) :
    s.main.toMain ≠ .returned r o := by
  intro hmain
  cases hstage : s.main with
  | returned r' o' => exact h r' o' hstage
  | _ =>
    rw [hstage] at hmain
    cases hmain

/-- Before the end of the code, the other calls and the tasks of the cache go on. -/
theorem Early.stepGraph (h : A.Early scheduler s) (hearly : s.main.early = true)
    {move : DirectedGraph.Move V} (howned : A.ownedByCode s move = false) :
    A.Early scheduler
      { s with graph := (A.graph s.remoteAlgorithms []).step s.graph move } := by
  have hnone : s.remoteAlgorithms = [] := h.remoteAlgorithms
  have hsame (hgraph : (A.graph s.remoteAlgorithms []).step s.graph move = s.graph) :
      A.Early scheduler
        { s with graph := (A.graph s.remoteAlgorithms []).step s.graph move } := by
    rw [hgraph]
    exact h
  cases move with
  | spawner order =>
    refine hsame ?_
    simp only [DirectedGraph.step, DirectedGraph.stepSpawner, h.spawner]
  | fork i answer =>
    refine hsame ?_
    simp only [DirectedGraph.step, DirectedGraph.stepFork, graph, hnone, List.getElem?_nil]
  | cache c =>
    have hhas : s.graph.cache.Has c := by
      cases c with
      | task t => trivial
      | call i =>
        have hi : ¬ s.remoteAlgorithms.length + A.others.length ≤ i :=
          of_decide_eq_false howned
        rw [hnone, List.length_nil, Nat.zero_add, Nat.not_le] at hi
        exact hi.trans_le h.others
    have hgraph : (A.graph s.remoteAlgorithms []).step s.graph (.cache c) =
        { s.graph with cache := s.graph.cache.step A.inputs c } := by
      rw [hnone]
      exact step_cache (by cases c <;> rfl)
    rw [hgraph]
    obtain ⟨made, hreaches⟩ := h.reaches
    have hmain := Stage.toMain_ne_returned (Stage.not_returned_of_early hearly)
    refine ⟨h.remoteAlgorithms, h.spawner, ?_, fun stop heq i rest hawaiting => ?_, made,
      fun remoteAlgorithms later outcome => ?_⟩
    · dsimp only
      rw [length_step]
      exact h.others
    · dsimp only
      rw [length_step]
      exact h.awaited stop heq i rest hawaiting
    · have hstep := (hreaches remoteAlgorithms later outcome).step
        (.graph (.cache (c.shift remoteAlgorithms.length)))
      have howned : (A.activation remoteAlgorithms (made ++ later) outcome).graph.ownedByFork
          (c.shift remoteAlgorithms.length) = false := by
        cases c with
        | task t => rfl
        | call i => exact decide_eq_false (Nat.not_lt.mpr (Nat.le_add_right _ _))
      have hextend : (s.graph.cache.extend (A.forkCalls remoteAlgorithms)
            (later.map .unmade)).step A.inputs (c.shift (A.forkCalls remoteAlgorithms).length) =
          (s.graph.cache.step A.inputs c).extend (A.forkCalls remoteAlgorithms)
            (later.map .unmade) := Cache.State.extend_step hhas
      rw [show (A.forkCalls remoteAlgorithms).length = remoteAlgorithms.length from
        List.length_map _] at hextend
      rw [step_graph hmain, step_cache howned] at hstep
      have hafter : A.Reaches scheduler remoteAlgorithms (made ++ later) outcome
          ⟨s.main.toMain, { s.graph with
            cache := (s.graph.cache.extend (A.forkCalls remoteAlgorithms)
              (later.map .unmade)).step A.inputs (c.shift remoteAlgorithms.length) }⟩ := hstep
      rw [hextend] at hafter
      exact hafter

/-- After the end of the code, the steps are the same. -/
theorem Simulated.stepLate (hlate : s.main.early = false)
    (h : A.Reaches scheduler s.remoteAlgorithms made outcome ⟨s.main.toMain, s.graph⟩)
    (move : Activation.Move V) : A.Simulated scheduler (A.step s move) := by
  have hstep := h.step move
  cases move with
  | main =>
    show A.Simulated scheduler (A.stepMain s)
    unfold stepMain
    cases hmain : s.main with
    | starting => rw [hmain] at hlate; cases hlate
    | running stop => rw [hmain] at hlate; cases hlate
    | awaitingSpawner =>
      rw [hmain] at hstep
      simp only [Stage.toMain, Activation.step, Activation.stepMain] at hstep
      dsimp only
      cases hspawner : s.graph.spawner with
      | ended outcome' =>
        rw [hspawner] at hstep
        cases outcome' with
        | ok results => exact ⟨fun hearly => (by cases hearly), fun _ => ⟨_, _, hstep⟩⟩
        | error e => exact ⟨fun hearly => (by cases hearly), fun _ => ⟨_, _, hstep⟩⟩
      | _ =>
        dsimp only
        refine ⟨fun hearly => ?_, fun _ => ⟨_, _, h⟩⟩
        rw [hmain] at hearly
        cases hearly
    | finishing r left =>
      rw [hmain] at hstep
      cases left with
      | zero => exact ⟨fun hearly => (by cases hearly), fun _ => ⟨_, _, hstep⟩⟩
      | succ left => exact ⟨fun hearly => (by cases hearly), fun _ => ⟨_, _, hstep⟩⟩
    | returned r o =>
      refine ⟨fun hearly => ?_, fun _ => ⟨_, _, h⟩⟩
      rw [hmain] at hearly
      cases hearly
  | graph move =>
    have hsame : A.Simulated scheduler s :=
      ⟨fun hearly => (by rw [hlate] at hearly; cases hearly), fun _ => ⟨_, _, h⟩⟩
    refine stepGraph_rule hsame fun hmain => ⟨fun hearly => ?_, fun _ => ⟨made, outcome, ?_⟩⟩
    · rw [show s.main.early = true from hearly] at hlate
      cases hlate
    · rwa [step_graph (Stage.toMain_ne_returned hmain)] at hstep

theorem Simulated.step (h : A.Simulated scheduler s) (move : Activation.Move V) :
    A.Simulated scheduler (A.step s move) := by
  cases hearly : s.main.early with
  | false =>
    obtain ⟨made, outcome, hreaches⟩ := h.2 hearly
    exact stepLate hearly hreaches move
  | true =>
    have hs := h.1 hearly
    cases move with
    | main =>
      show A.Simulated scheduler (A.stepMain s)
      cases hmain : s.main with
      | starting => exact hs.start hmain
      | running stop =>
        unfold stepMain
        rw [hmain]
        exact hs.stepRun hmain
      | _ =>
        rw [hmain] at hearly
        cases hearly
    | graph move =>
      rw [step_graph_of_open (Stage.not_returned_of_early hearly)]
      split
      · exact h
      · next howned =>
        refine ⟨fun _ => hs.stepGraph hearly (Bool.eq_false_iff.mpr howned), fun hlate => ?_⟩
        rw [show s.main.early = false from hlate] at hearly
        cases hearly

theorem simulated_initial (A : GraphRun Obj Val F C V α R D) (scheduler : Scheduler Nat F C) :
    A.Simulated scheduler (A.initial scheduler) := by
  refine ⟨fun _ => ⟨rfl, rfl, ?_, fun stop heq => (by cases heq), [],
    fun remoteAlgorithms later outcome => ⟨[], ?_⟩⟩, fun hlate => by cases hlate⟩
  · simp [GraphRun.initial, DirectedGraph.initial, Cache.initial, graph]
  · have hinitial := Cache.State.initial_append
      (remoteAlgorithms.map fun fork => (fork.inputProcessors, A.kwargs)) A.others later
    rw [List.map_map] at hinitial
    show (A.activation remoteAlgorithms ([] ++ later) outcome).initial scheduler = _
    simp only [Activation.initial, withCalls, GraphRun.initial, DirectedGraph.initial, activation,
      graph, forkCalls, List.nil_append, List.map_nil, List.append_nil, hinitial]
    rfl

theorem Simulated.reaches (h : A.Simulated scheduler s) :
    ∃ made outcome, A.Reaches scheduler s.remoteAlgorithms made outcome
      ⟨s.main.toMain, s.graph⟩ := by
  cases hearly : s.main.early with
  | false => exact h.2 hearly
  | true =>
    obtain ⟨made, hreaches⟩ := (h.1 hearly).reaches
    have hreached := hreaches [] [] (.ok true)
    rw [withCalls, show A.forkCalls [] = [] from rfl, List.map_nil,
      Cache.State.extend_nil] at hreached
    rw [(h.1 hearly).remoteAlgorithms]
    exact ⟨_, _, hreached⟩

theorem simulated_run (A : GraphRun Obj Val F C V α R D) (scheduler : Scheduler Nat F C)
    (σ : List (Activation.Move V)) :
    A.Simulated scheduler (run A.step (A.initial scheduler) σ) :=
  run_invariant (I := A.Simulated scheduler) (fun _ move h => h.step move)
    (simulated_initial A scheduler) σ

/-- A run of the application with the code of its algorithm is one with given remote algorithms:
those that are spawned. -/
theorem run_refines_activation (A : GraphRun Obj Val F C V α R D) (scheduler : Scheduler Nat F C)
    (σ : List (Activation.Move V)) :
    let s := run A.step (A.initial scheduler) σ
    ∃ made outcome τ, run (A.activation s.remoteAlgorithms made outcome).step
      ((A.activation s.remoteAlgorithms made outcome).initial scheduler) τ =
        ⟨s.main.toMain, s.graph⟩ := by
  intro s
  exact (simulated_run A scheduler σ).reaches

end Simulation

end GraphRun

end NexusSdk.Algorithms
