import NexusSdk.Algorithms.SharedInputs
import NexusSdk.Cache.Extension
import NexusSdk.Lib.Coroutine

/-! `FanOutAlgorithm.run` and `ForkedAlgorithm.run` with their hooks, as coroutines that call the
input cache, and the run of the application around them.  The remote algorithms that are spawned are
those that a hook returns. -/

namespace NexusSdk.Algorithms

open Lib

variable {Obj Val F C V α R D : Type}

/-- The code of an algorithm, which may call `resolve`. -/
abbrev AlgorithmCode (Obj Val A : Type) :=
  Coroutine (List Obj × Cache.Kwargs Val) (Except PyExc (Cache.Kwargs Val)) PyExc A

/-- `f(**a, **b)`. -/
def passBoth (a b : RunArgs V) : Except PyExc (RunArgs V) := do
  passArgs (b.items.map Prod.fst) a
  return a.merge b

/-- The call of `_spawn_remote_algorithms`, whose own parameters are no arguments of the run. -/
def passToSpawn (kwargs : RunArgs V) : Except PyExc Unit :=
  passArgs ["run_result", "remote_algorithms", "async_spawn_enabled", "spawn_base_delay_seconds"]
    kwargs

/-! ### The algorithms -/

/-- A subclass of `FanOutAlgorithm`. -/
structure FanOutAlgorithm (Obj Val F C V α R D : Type) where
  /-- `_input_processors` -/
  inputProcessors : List Obj
  /-- what a hook sees of a keyword argument or a result -/
  asArg : Option Val → ArgValue V
  /-- `_run` -/
  coreRun : RunArgs V → AlgorithmCode Obj Val D
  /-- `_get_branches` -/
  getBranches : RunArgs V → AlgorithmCode Obj Val (List (Fork Obj F C V α R))

namespace FanOutAlgorithm

variable (A : FanOutAlgorithm Obj Val F C V α R D)

def toArgs (kwargs : Cache.Kwargs Val) : RunArgs V :=
  .ofList (kwargs.items.map fun item => (item.1, A.asArg item.2))

/-- `run` up to `_spawn_remote_algorithms`, with the arguments `run_result` and
`remote_algorithms`. -/
def run (kwargs : Cache.Kwargs Val) : AlgorithmCode Obj Val (D × List (Fork Obj F C V α R)) := do
  let inputs ← .await (A.inputProcessors, kwargs)
  let args ← .ends (measuredArgs (A.toArgs kwargs) (A.toArgs inputs))
  let runResult ← A.coreRun args
  let args ← .ends (passBoth (A.toArgs inputs) (A.toArgs kwargs))
  let childAlgorithms ← A.getBranches args
  .ends (passToSpawn (A.toArgs kwargs))
  return (runResult, childAlgorithms)

end FanOutAlgorithm

/-- A subclass of `ForkedAlgorithm`. -/
structure ForkedAlgorithm (Obj Val F C V α R D : Type) where
  /-- `_input_processors` -/
  inputProcessors : List Obj
  /-- what a hook sees of a keyword argument or a result -/
  asArg : Option Val → ArgValue V
  /-- `_is_forked` -/
  isForked : RunArgs V → AlgorithmCode Obj Val Bool
  /-- `_main_inputs` -/
  mainInputs : Cache.Kwargs Val → AlgorithmCode Obj Val (Cache.Kwargs Val)
  /-- `_fork_inputs` -/
  forkInputs : Cache.Kwargs Val → AlgorithmCode Obj Val (Cache.Kwargs Val)
  /-- `_get_forks` -/
  getForks : RunArgs V → AlgorithmCode Obj Val (List (Fork Obj F C V α R))
  /-- `_main_run` -/
  mainRun : RunArgs V → AlgorithmCode Obj Val D
  /-- `_fork_run` -/
  forkRun : RunArgs V → AlgorithmCode Obj Val D

namespace ForkedAlgorithm

variable (A : ForkedAlgorithm Obj Val F C V α R D)

def toArgs (kwargs : Cache.Kwargs Val) : RunArgs V :=
  .ofList (kwargs.items.map fun item => (item.1, A.asArg item.2))

/-- `_default_inputs`, for use in the hooks. -/
def defaultInputs (kwargs : Cache.Kwargs Val) : AlgorithmCode Obj Val (Cache.Kwargs Val) :=
  .await (A.inputProcessors, kwargs)

/-- `_run`. -/
def coreRun (args : RunArgs V) : AlgorithmCode Obj Val D := do
  if ← A.isForked args then A.forkRun args else A.mainRun args

/-- `run` up to `_spawn_remote_algorithms`.  Whether this is a fork is asked here and in `_run`. -/
def run (kwargs : Cache.Kwargs Val) : AlgorithmCode Obj Val (D × List (Fork Obj F C V α R)) := do
  let forked ← A.isForked (A.toArgs kwargs)
  let inputs ← if forked then A.forkInputs kwargs else A.mainInputs kwargs
  let args ← .ends (passBoth (A.toArgs inputs) (A.toArgs kwargs))
  let forks ← A.getForks args
  let args ← .ends (measuredArgs (A.toArgs kwargs) (A.toArgs inputs))
  let runResult ← A.coreRun args
  .ends (passToSpawn (A.toArgs kwargs))
  return (runResult, forks)

end ForkedAlgorithm

/-! ### The run of the application -/

/-- A run of the application with the code of its algorithm. -/
structure GraphRun (Obj Val F C V α R D : Type) where
  inputs : Cache.Inputs Obj Val
  kwargs : Cache.Kwargs Val
  asArg : Option Val → ArgValue V
  /-- `run` up to `_spawn_remote_algorithms` -/
  code : AlgorithmCode Obj Val (D × List (Fork Obj F C V α R))
  /-- `isinstance(run_result, DirectedGraphResult)` -/
  isDirectedGraphResult : D → Bool
  asyncSpawnEnabled : Bool
  spawnBaseDelaySeconds : Int
  /-- the calls of `resolve` by neither the algorithm nor a remote algorithm -/
  others : List (List Obj × Cache.Kwargs Val)
  /-- the other stages of `activate` -/
  stages : Core.Stages
  /-- how often `activate` suspends after the run -/
  suspensions : Nat

namespace GraphRun

/-- Where the code of the algorithm stands; a call of `resolve` is known by its number. -/
abbrev Stop (Obj Val F C V α R D : Type) :=
  Coroutine.Stop (List Obj × Cache.Kwargs Val) (Except PyExc (Cache.Kwargs Val)) PyExc
    (D × List (Fork Obj F C V α R)) Nat

inductive Stage (Obj Val F C V α R D : Type)
  | starting
  | running (stop : Stop Obj Val F C V α R D)
  | awaitingSpawner
  | finishing (run : Except PyExc Unit) (left : Nat)
  | returned (run : Option (Except PyExc Unit)) (outcome : Except Core.Exit Unit)

structure State (Obj Val F C V α R D : Type) where
  main : Stage Obj Val F C V α R D
  /-- those that are spawned -/
  remoteAlgorithms : List (Fork Obj F C V α R)
  graph : DirectedGraph.State Obj Val F C V α R

/-- The result of a call of `resolve`. -/
def answer? (cache : Cache.State Obj Val) (i : Nat) : Option (Except PyExc (Cache.Kwargs Val)) :=
  match cache.calls[i]?.map Cache.Call.state with
  | some (.returned results) => some (.ok results)
  | some (.raised e) => some (.error e)
  | _ => none

section Ask

variable [DecidableEq Obj]

/-- A call of `resolve` up to its first suspension. -/
def ask (P : Cache.Inputs Obj Val) (cache : Cache.State Obj Val)
    (request : List Obj × Cache.Kwargs Val) :
    Cache.State Obj Val × (Nat ⊕ Except PyExc (Cache.Kwargs Val)) :=
  let i := cache.calls.length
  let cache := { cache with calls := cache.calls ++ [Cache.Call.unmade request] }.step P (.call i)
  match answer? cache i with
  | some a => (cache, .inr a)
  | none => (cache, .inl i)

/-- The code goes on to its next stop. -/
def resume (P : Cache.Inputs Obj Val) (cache : Cache.State Obj Val) :
    Stop Obj Val F C V α R D → Cache.State Obj Val × Stop Obj Val F C V α R D
  | .ended outcome => (cache, .ended outcome)
  | .suspended rest => rest.goOn (ask P) cache
  | .awaiting i rest =>
    let cache := cache.step P (.call i)
    match answer? cache i with
    | some a => (rest a).goOn (ask P) cache
    | none => (cache, .awaiting i rest)

end Ask

variable (A : GraphRun Obj Val F C V α R D)

/-- `_spawn_remote_algorithms` of the given remote algorithms, with further calls of `resolve`. -/
def graph (remoteAlgorithms : List (Fork Obj F C V α R))
    (others : List (List Obj × Cache.Kwargs Val)) : DirectedGraph Obj Val F C V α R where
  inputs := A.inputs
  kwargs := A.kwargs
  asArg := A.asArg
  remoteAlgorithms
  spawnBaseDelaySeconds := A.spawnBaseDelaySeconds
  others := A.others ++ others

/-- The calls of `resolve` that the remote algorithms are going to make. -/
def forkCalls (remoteAlgorithms : List (Fork Obj F C V α R)) : List (Cache.Call Obj Val) :=
  remoteAlgorithms.map fun fork => .unmade (fork.inputProcessors, A.kwargs)

/-- `_spawn_remote_algorithms` up to its first `await` or its end.  The calls of `resolve` of the
remote algorithms get the first numbers. -/
def spawnRemoteAlgorithms (s : State Obj Val F C V α R D) (runResult : D)
    (remoteAlgorithms : List (Fork Obj F C V α R)) : State Obj Val F C V α R D :=
  if A.isDirectedGraphResult runResult then
    if remoteAlgorithms.isEmpty then { s with main := .finishing (.ok ()) A.suspensions }
    else
      { main := if A.asyncSpawnEnabled then .finishing (.ok ()) A.suspensions else .awaitingSpawner
        remoteAlgorithms
        graph :=
          { s.graph with
            cache := s.graph.cache.extend (A.forkCalls remoteAlgorithms) []
            spawner := .launching 0 } }
  else { s with main := .finishing (.error Activation.notADirectedGraphResult) A.suspensions }

section Steps

variable [DecidableEq Obj]

/-- The code of the algorithm goes on. -/
def stepRun (s : State Obj Val F C V α R D) (stop : Stop Obj Val F C V α R D) :
    State Obj Val F C V α R D :=
  let (cache, stop) := resume A.inputs s.graph.cache stop
  let s := { s with graph := { s.graph with cache } }
  match stop with
  | .ended (.ok (runResult, remoteAlgorithms)) =>
    A.spawnRemoteAlgorithms s runResult remoteAlgorithms
  | .ended (.error e) => { s with main := .finishing (.error e) A.suspensions }
  | stop => { s with main := .running stop }

def stepMain (s : State Obj Val F C V α R D) : State Obj Val F C V α R D :=
  match s.main with
  | .starting =>
    if A.stages.TaskRan then { s with main := .running (.suspended A.code) }
    else { s with main := .returned none (Core.activate A.stages).outcome }
  | .running stop => A.stepRun s stop
  | .awaitingSpawner =>
    match s.graph.spawner with
    | .ended (.ok _) => { s with main := .finishing (.ok ()) A.suspensions }
    | .ended (.error e) => { s with main := .finishing (.error e) A.suspensions }
    | _ => s
  | .finishing run (n + 1) => { s with main := .finishing run n }
  | .finishing run 0 =>
    { s with main := .returned (some run) (Core.activate { A.stages with run }).outcome }
  | .returned _ _ => s

/-- A call of `resolve` by the algorithm's code goes on with that code only. -/
def ownedByCode (s : State Obj Val F C V α R D) : DirectedGraph.Move V → Bool
  | .cache (.call i) => s.remoteAlgorithms.length + A.others.length ≤ i
  | _ => false

/-- When `activate` has returned, `asyncio.run` cancels what is pending. -/
def step (s : State Obj Val F C V α R D) : Activation.Move V → State Obj Val F C V α R D
  | .main => A.stepMain s
  | .graph move =>
    match s.main with
    | .returned _ _ => s
    | _ =>
      if A.ownedByCode s move then s
      else { s with graph := (A.graph s.remoteAlgorithms []).step s.graph move }

end Steps

def initial (scheduler : Scheduler Nat F C) : State Obj Val F C V α R D :=
  ⟨.starting, [], (A.graph [] []).initial scheduler .unspawned⟩

end GraphRun

end NexusSdk.Algorithms
