import NexusSdk.Algorithms.RemoteAlgorithm
import NexusSdk.Cache.Model
import NexusSdk.Core.Report

/-! `_spawn_remote_algorithms` of `ForkedAlgorithm` and `FanOutAlgorithm`.  The remote algorithms
share the input cache of their parent; a step is the work of one coroutine between two awaits.  What
is awaited outside of the process ends in any of the ways of its `Answer`.  A `SystemExit` of a task
ends that task only: the runs in which it stops the event loop end earlier. -/

namespace NexusSdk.Algorithms

open Lib

/-- A remote algorithm with its `_input_processors`. -/
structure Fork (Obj F C V α R : Type) where
  algorithm : RemoteAlgorithm F C V α R
  inputProcessors : List Obj

/-- The arguments of `_spawn_remote_algorithms`, and the input cache. -/
structure DirectedGraph (Obj Val F C V α R : Type) where
  inputs : Cache.Inputs Obj Val
  kwargs : Cache.Kwargs Val
  /-- what `run` sees of a keyword argument or a result -/
  asArg : Option Val → ArgValue V
  remoteAlgorithms : List (Fork Obj F C V α R)
  spawnBaseDelaySeconds : Int
  /-- the other calls of `resolve` of the same cache -/
  others : List (List Obj × Cache.Kwargs Val)

/-- Where `_spawn_all` stands. -/
inductive Spawner (R : Type)
  | unspawned
  /-- before the launch of number `index`, and asleep unless it is the first -/
  | launching (index : Nat)
  /-- in `asyncio.wait` for all of them -/
  | waiting
  | ended (outcome : Except PyExc (List R))

namespace DirectedGraph

variable {Obj Val F C V α R : Type}

structure State (Obj Val F C V α R : Type) where
  cache : Cache.State Obj Val
  scheduler : Scheduler Nat F C
  /-- what the run of each remote algorithm awaits, once its task exists -/
  phases : Nat → Option (Phase Nat F C V α R)
  /-- the tasks in the order of their creation, for the statements of properties -/
  started : List Nat
  spawner : Spawner R

inductive Move (V : Type)
  /-- `order` is that in which the set of the done tasks is iterated -/
  | spawner (order : List Nat)
  | fork (i : Nat) (answer : Answer V)
  | cache (caller : Cache.Caller)

variable (G : DirectedGraph Obj Val F C V α R)

def toArgs (kwargs : Cache.Kwargs Val) : RunArgs V :=
  .ofList (kwargs.items.map fun item => (item.1, G.asArg item.2))

/-- `asyncio.create_task(remote_algorithm.run(**remote_args))`. -/
def startRun (s : State Obj Val F C V α R) (i : Nat) : State Obj Val F C V α R :=
  { s with
    phases := Function.update s.phases i (some (.resolving (G.toArgs G.kwargs)))
    started := s.started ++ [i] }

/-- The launches from number `index` on, up to the next sleep. -/
def launch (s : State Obj Val F C V α R) (index : Nat) : State Obj Val F C V α R :=
  if 0 < G.spawnBaseDelaySeconds then
    { G.startRun s index with
      spawner :=
        if index + 1 < G.remoteAlgorithms.length then .launching (index + 1) else .waiting }
  else
    { (List.range' index (G.remoteAlgorithms.length - index)).foldl G.startRun s with
      spawner := .waiting }

namespace State

/-- The task of remote algorithm `i` is done. -/
def finished (s : State Obj Val F C V α R) (i : Nat) : Bool :=
  match s.phases i with
  | some (.done _ _) => true
  | _ => false

/-- The loop over the done tasks; for a cancelled one, `exception()` raises. -/
def remoteResults (s : State Obj Val F C V α R) : List Nat → Except PyExc (List R)
  | [] => .ok []
  | i :: rest =>
    match s.phases i with
    | some (.done _ (.ok r)) => (s.remoteResults rest).map (r :: ·)
    | some (.done _ (.error e)) => if e.isCancelled then .error e else s.remoteResults rest
    | _ => s.remoteResults rest

end State

/-- `_spawn_all` goes on. -/
def stepSpawner (s : State Obj Val F C V α R) (order : List Nat) : State Obj Val F C V α R :=
  match s.spawner with
  | .launching index => G.launch s index
  | .waiting =>
    if order.Perm (List.range G.remoteAlgorithms.length) ∧ order.all s.finished then
      { s with spawner := .ended (s.remoteResults order) }
    else s
  | _ => s

/-- The run of remote algorithm `i` gets an answer. -/
def resume (fork : Fork Obj F C V α R) (s : State Obj Val F C V α R) (i : Nat)
    (phase : Phase Nat F C V α R) (answer : Answer V) : State Obj Val F C V α R :=
  match fork.algorithm.resume i s.scheduler phase answer with
  | none => s
  | some (scheduler, phase) =>
    { s with scheduler, phases := Function.update s.phases i (some phase) }

/-- The run of remote algorithm `i` gets the answer of the cache, if there is one. -/
def resumeResolved (fork : Fork Obj F C V α R) (s : State Obj Val F C V α R) (i : Nat)
    (kwargs : RunArgs V) : State Obj Val F C V α R :=
  match s.cache.calls[i]?.map Cache.Call.state with
  | some (.returned results) => resume fork s i (.resolving kwargs) (.resolves (G.toArgs results))
  | some (.raised e) => resume fork s i (.resolving kwargs) (.raises e)
  | _ => s

section Steps

variable [DecidableEq Obj]

/-- The run of remote algorithm `i` goes on. -/
def stepFork (s : State Obj Val F C V α R) (i : Nat) (answer : Answer V) :
    State Obj Val F C V α R :=
  match G.remoteAlgorithms[i]?, s.phases i with
  | some fork, some (.resolving kwargs) =>
    G.resumeResolved fork { s with cache := s.cache.step G.inputs (.call i) } i kwargs
  | some fork, some phase => resume fork s i phase answer
  | _, _ => s

/-- A call of `resolve` by a remote algorithm is a part of its run. -/
def ownedByFork : Cache.Caller → Bool
  | .call i => i < G.remoteAlgorithms.length
  | .task _ => false

/-- A move that is not possible changes nothing. -/
def step (s : State Obj Val F C V α R) : Move V → State Obj Val F C V α R
  | .spawner order => G.stepSpawner s order
  | .fork i answer => G.stepFork s i answer
  | .cache caller =>
    if G.ownedByFork caller then s else { s with cache := s.cache.step G.inputs caller }

end Steps

def initial (scheduler : Scheduler Nat F C) (spawner : Spawner R) : State Obj Val F C V α R where
  cache := Cache.initial
    ((G.remoteAlgorithms.map fun fork => (fork.inputProcessors, G.kwargs)) ++ G.others)
  scheduler
  phases := fun _ => none
  started := []
  spawner

end DirectedGraph

/-! ### `Nexus.activate` around the algorithm -/

/-- The coroutine of `activate`, and in it the run of the algorithm. -/
inductive MainStage
  | starting
  /-- the algorithm's own run, up to `_spawn_remote_algorithms` -/
  | running (left : Nat)
  | awaitingSpawner
  /-- the run task is done -/
  | finishing (run : Except PyExc Unit) (left : Nat)
  | returned (run : Option (Except PyExc Unit)) (outcome : Except Core.Exit Unit)

instance (stages : Core.Stages) : Decidable stages.TaskRan :=
  inferInstanceAs (Decidable (∀ x ∈ _, x = Except.ok ()))

/-- A run of the application with a `ForkedAlgorithm` or a `FanOutAlgorithm`. -/
structure Activation (Obj Val F C V α R : Type) where
  graph : DirectedGraph Obj Val F C V α R
  asyncSpawnEnabled : Bool
  /-- the hooks and `_run`; it returns whether its result is a `DirectedGraphResult` -/
  ownRun : Cache.Hook Bool
  /-- the other stages -/
  stages : Core.Stages
  /-- how often `activate` suspends after the run -/
  suspensions : Nat

namespace Activation

variable {Obj Val F C V α R : Type} (A : Activation Obj Val F C V α R)

structure State (Obj Val F C V α R : Type) where
  main : MainStage
  graph : DirectedGraph.State Obj Val F C V α R

def notADirectedGraphResult : PyExc :=
  .raised typeError "Expected run_result to be of type DirectedGraphResult"

/-- `_spawn_remote_algorithms` up to its first `await` or its end. -/
def spawnRemoteAlgorithms (s : State Obj Val F C V α R) : State Obj Val F C V α R :=
  if A.graph.remoteAlgorithms.isEmpty then { s with main := .finishing (.ok ()) A.suspensions }
  else
    { main := if A.asyncSpawnEnabled then .finishing (.ok ()) A.suspensions else .awaitingSpawner
      graph := { s.graph with spawner := .launching 0 } }

def stepMain (s : State Obj Val F C V α R) : State Obj Val F C V α R :=
  match s.main with
  | .starting =>
    if A.stages.TaskRan then { s with main := .running A.ownRun.suspensions }
    else { s with main := .returned none (Core.activate A.stages).outcome }
  | .running (n + 1) => { s with main := .running n }
  | .running 0 =>
    match A.ownRun.outcome with
    | .ok true => A.spawnRemoteAlgorithms s
    | .ok false => { s with main := .finishing (.error notADirectedGraphResult) A.suspensions }
    | .error e => { s with main := .finishing (.error e) A.suspensions }
  | .awaitingSpawner =>
    match s.graph.spawner with
    | .ended (.ok _) => { s with main := .finishing (.ok ()) A.suspensions }
    | .ended (.error e) => { s with main := .finishing (.error e) A.suspensions }
    | _ => s
  | .finishing run (n + 1) => { s with main := .finishing run n }
  | .finishing run 0 =>
    { s with main := .returned (some run) (Core.activate { A.stages with run }).outcome }
  | .returned _ _ => s

inductive Move (V : Type)
  | main
  | graph (move : DirectedGraph.Move V)

/-- When `activate` has returned, `asyncio.run` cancels what is pending. -/
def step [DecidableEq Obj] (s : State Obj Val F C V α R) : Move V → State Obj Val F C V α R
  | .main => A.stepMain s
  | .graph move =>
    match s.main with
    | .returned _ _ => s
    | _ => { s with graph := A.graph.step s.graph move }

def initial (scheduler : Scheduler Nat F C) : State Obj Val F C V α R :=
  ⟨.starting, A.graph.initial scheduler .unspawned⟩

end Activation

end NexusSdk.Algorithms
