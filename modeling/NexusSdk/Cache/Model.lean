import NexusSdk.Exceptions
import NexusSdk.Lib.Run
import Mathlib.Logic.Function.Basic

/-! `InputCache.resolve` and the `process` of `InputReader` and `InputProcessor`, as the tasks of an
event loop.  One step of a task runs it up to its next suspension; nothing runs in between.  The
cache's lock is never held across an `await`, so taking it never suspends, and it has no state here.
Input objects that are alive together have different cache keys, so an object stands for its key. -/

namespace NexusSdk.Cache

open Lib

/-- Named values; `none` is Python's `None`. -/
abbrev Kwargs (Val : Type) := Dict String (Option Val)

/-- One invocation of a user hook: it suspends `suspensions` times and then ends, with the `outcome`
that leaves its coroutine. -/
structure Hook (α : Type) where
  suspensions : Nat
  outcome : Except PyExc α

/-- The input objects with their classes' hooks.  The hooks of two tasks may behave differently. -/
structure Inputs (Obj Val : Type) where
  cacheKey : Obj → String
  /-- `cls.alias()` of its class -/
  classAlias : Obj → String
  /-- `self._readers` -/
  readers : Obj → List Obj
  contextOpen : Nat → Obj → Hook Unit
  /-- `_read_input` of a reader, `_process_input` of a processor -/
  evaluate : Nat → Obj → Kwargs Val → Hook (Option Val)
  contextClose : Nat → Obj → Hook Unit
  errorMap : NexusErrorMapCollection

/-- Where a task of `_execute` stands.  A hook that still has to suspend is suspended; the stages
`opening 0`, `entered`, `evaluating _ 0` and `closing _ 0` are passed without suspension. -/
inductive Stage (Val : Type)
  | created
  | opening (left : Nat)
  | entered
  /-- asleep in the `resolve` of its own readers, `numCached` of which the last poll found -/
  | resolving (numCached : Nat)
  | evaluating (kwargs : Kwargs Val) (left : Nat)
  /-- in `_context_close`, with the outcome of `process` pending -/
  | closing (result : Except PyExc (Option Val)) (left : Nat)
  | done (result : Except PyExc (Option Val))

/-- The stages that a task leaves without suspending. -/
def Stage.running : Stage Val → Bool
  | .opening 0 | .entered | .evaluating _ 0 | .closing _ 0 => true
  | _ => false

structure Task (Obj Val : Type) where
  obj : Obj
  kwargs : Kwargs Val
  stage : Stage Val

inductive CallState (Val : Type)
  | idle
  | polling (numCached : Nat)
  | returned (result : Kwargs Val)
  | raised (e : PyExc)

structure Call (Obj Val : Type) where
  args : List Obj
  kwargs : Kwargs Val
  state : CallState Val

/-- A call of `resolve`: a top-level one, or the one that task `t` makes for its readers. -/
inductive Caller
  | call (i : Nat)
  | task (t : Nat)
  deriving DecidableEq

/-- What happened, for the statements of properties; the code reads none of it. -/
inductive Event (Obj Val : Type)
  | resolve (by_ : Caller) (args : List Obj)
  | returned (by_ : Caller) (args : List Obj) (result : Kwargs Val)
  | raised (by_ : Caller) (e : PyExc)
  | evaluate (t : Nat) (x : Obj) (kwargs : Kwargs Val)
  | processed (t : Nat) (x : Obj) (result : Except PyExc (Option Val))

structure State (Obj Val : Type) where
  /-- `_cache` -/
  cache : Dict Obj (Option Val)
  /-- `_scheduled`, with tasks named by their position in `tasks` -/
  scheduled : Dict Obj Nat
  /-- `_total_executed` -/
  totalExecuted : Nat
  tasks : List (Task Obj Val)
  /-- `_data` of a reader, `_result` of a processor -/
  data : Obj → Option Val
  calls : List (Call Obj Val)
  /-- the tasks for whose failure a `resolve` has raised -/
  handedOut : List Nat := []
  history : List (Event Obj Val)

variable {Obj Val : Type} [DecidableEq Obj]

def initial (calls : List (List Obj × Kwargs Val)) : State Obj Val where
  cache := .empty
  scheduled := .empty
  totalExecuted := 0
  tasks := []
  data := fun _ => none
  calls := calls.map fun c => ⟨c.1, c.2, .idle⟩
  history := []

namespace State

def setStage (s : State Obj Val) (t : Nat) (stage : Stage Val) : State Obj Val :=
  { s with tasks := s.tasks.modify t fun task => { task with stage } }

def setCall (s : State Obj Val) (i : Nat) (state : CallState Val) : State Obj Val :=
  { s with calls := s.calls.modify i fun c => { c with state } }

def log (s : State Obj Val) (e : Event Obj Val) : State Obj Val :=
  { s with history := s.history ++ [e] }

def stage? (s : State Obj Val) (t : Nat) : Option (Stage Val) := s.tasks[t]?.map Task.stage

/-! ### `resolve` -/

/-- `self._scheduled[key] = asyncio.create_task(_execute(x))`. -/
def createTask (kwargs : Kwargs Val) (s : State Obj Val) (x : Obj) : State Obj Val :=
  { s with
    scheduled := s.scheduled.set x s.tasks.length
    tasks := s.tasks ++ [⟨x, kwargs, .created⟩] }

/-- `to_schedule`: membership is tested for all arguments before the first task is created. -/
def toSchedule (s : State Obj Val) (args : List Obj) : List Obj :=
  args.filter fun x => !s.scheduled.contains x

/-- The first half of `resolve`, under the lock. -/
def schedule (s : State Obj Val) (by_ : Caller) (args : List Obj) (kwargs : Kwargs Val) :
    State Obj Val :=
  (s.toSchedule args).foldl (createTask kwargs) (s.log (.resolve by_ args))

/-- `num_cached`: every occurrence in the argument list counts. -/
def numCached (s : State Obj Val) (args : List Obj) : Nat := args.countP s.cache.contains

/-- `raise self._resolve_exc_type(e)(key) from e`, in a coroutine; for a cancelled task the call of
`exception()` already raises. -/
def failure (P : Inputs Obj Val) (x : Obj) (e : PyExc) : PyExc :=
  if e.isCancelled then e
  else
    let cls := resolveExcType P.errorMap e
    if cls.takesOneArgument then (PyExc.raisedFrom cls (P.cacheKey x) e).leavingCoroutine
    else .raised typeError cls.name

/-- What `exception()` of a task that `e` has ended gives, or raises for a cancelled task: the first
time `e` itself, from then on a new `CancelledError`. -/
def exception (s : State Obj Val) (t : Nat) (e : PyExc) : PyExc :=
  if decide (t ∈ s.handedOut) && e.isCancelled then .newCancelled else e

/-- The first scheduled task that is done with an exception. -/
def failed? (s : State Obj Val) : Option (Obj × Nat × PyExc) :=
  s.scheduled.items.findSome? fun (x, t) =>
    match s.stage? t with
    | some (.done (.error e)) => some (x, t, e)
    | _ => none

/-- The exception that is raised for it. -/
def firstFailure (P : Inputs Obj Val) (s : State Obj Val) : Option PyExc :=
  s.failed?.map fun (x, t, e) => failure P x (s.exception t e)

/-- The call of `exception()` takes the exception of a cancelled task out of it. -/
def handOut (s : State Obj Val) : State Obj Val :=
  { s with handedOut := (s.failed?.map fun (_, t, _) => t).toList ++ s.handedOut }

/-- The dictionary that `resolve` returns. -/
def collect (P : Inputs Obj Val) (s : State Obj Val) (args : List Obj) : Kwargs Val :=
  .ofList ((args.filter s.cache.contains).map fun x => (P.classAlias x, s.data x))

inductive Wait (Val : Type)
  | returns (result : Kwargs Val)
  | raises (e : PyExc)
  | sleeps (numCached : Nat)

/-- `_wait_for_cache` from the test of its loop on, up to the next sleep. -/
def waitForCache (P : Inputs Obj Val) (s : State Obj Val) (args : List Obj) (numCached : Nat) :
    Wait Val :=
  if numCached = args.length then .returns (s.collect P args)
  else
    match s.firstFailure P with
    | some e => .raises e
    | none => .sleeps (s.numCached args)

/-! ### `_execute` and `process` -/

/-- The end of `process` in task `t`: the `finally` block writes the cache, then `__aexit__` starts
`_context_close`. -/
def endProcess (P : Inputs Obj Val) (s : State Obj Val) (t : Nat) (x : Obj)
    (result : Except PyExc (Option Val)) : State Obj Val :=
  let s := s.log (.processed t x result)
  let s := { s with cache := s.cache.set x (result.toOption.join) }
  s.setStage t (.closing result (P.contextClose t x).suspensions)

/-- The `resolve` of the readers in `_read` or `_process` of task `t` goes on. -/
def awaitReaders (P : Inputs Obj Val) (s : State Obj Val) (t : Nat) (task : Task Obj Val)
    (numCached : Nat) : State Obj Val :=
  let readers := P.readers task.obj
  match s.waitForCache P readers numCached with
  | .sleeps n => s.setStage t (.resolving n)
  | .raises e => (s.handOut.log (.raised (.task t) e)).endProcess P t task.obj (.error e)
  | .returns inputs =>
    let kwargs := task.kwargs.merge inputs
    let s := (s.log (.returned (.task t) readers inputs)).log (.evaluate t task.obj kwargs)
    s.setStage t (.evaluating kwargs (P.evaluate t task.obj kwargs).suspensions)

/-- Task `t` goes on by one stage. -/
def advance (P : Inputs Obj Val) (s : State Obj Val) (t : Nat) : State Obj Val :=
  match s.tasks[t]? with
  | none => s
  | some task =>
    match task.stage with
    | .created =>
      { s with totalExecuted := s.totalExecuted + 1 }.setStage t
        (.opening (P.contextOpen t task.obj).suspensions)
    | .opening (n + 1) => s.setStage t (.opening n)
    | .opening 0 =>
      match (P.contextOpen t task.obj).outcome with
      | .ok () => s.setStage t .entered
      | .error e => s.setStage t (.done (.error e))
    | .entered =>
      match s.data task.obj with
      | some v => s.endProcess P t task.obj (.ok (some v))
      | none =>
        (s.schedule (.task t) (P.readers task.obj) task.kwargs).awaitReaders P t task 0
    | .resolving n => s.awaitReaders P t task n
    | .evaluating kwargs (n + 1) => s.setStage t (.evaluating kwargs n)
    | .evaluating kwargs 0 =>
      match (P.evaluate t task.obj kwargs).outcome with
      | .ok v =>
        { s with data := Function.update s.data task.obj v }.endProcess P t task.obj (.ok v)
      | .error e => s.endProcess P t task.obj (.error e)
    | .closing result (n + 1) => s.setStage t (.closing result n)
    | .closing result 0 =>
      match (P.contextClose t task.obj).outcome, result with
      | .ok (), _ => s.setStage t (.done result)
      | .error e, .ok _ => s.setStage t (.done (.error e))
      | .error e, .error pending => s.setStage t (.done (.error (e.during pending)))
    | .done _ => s

/-- Task `t` goes on until it suspends or is done, by at most `n` stages. -/
def settle (P : Inputs Obj Val) (t : Nat) : Nat → State Obj Val → State Obj Val
  | 0, s => s
  | n + 1, s => if (s.stage? t).any Stage.running then settle P t n (s.advance P t) else s

/-- Task `t` runs up to its next suspension; at most four stages can follow the first. -/
def stepTask (P : Inputs Obj Val) (s : State Obj Val) (t : Nat) : State Obj Val :=
  settle P t 4 (s.advance P t)

/-! ### Top-level calls -/

def awaitCall (P : Inputs Obj Val) (s : State Obj Val) (i : Nat) (c : Call Obj Val)
    (numCached : Nat) : State Obj Val :=
  match s.waitForCache P c.args numCached with
  | .sleeps n => s.setCall i (.polling n)
  | .raises e => (s.handOut.log (.raised (.call i) e)).setCall i (.raised e)
  | .returns result => (s.log (.returned (.call i) c.args result)).setCall i (.returned result)

def stepCall (P : Inputs Obj Val) (s : State Obj Val) (i : Nat) : State Obj Val :=
  match s.calls[i]? with
  | none => s
  | some c =>
    match c.state with
    | .idle => (s.schedule (.call i) c.args c.kwargs).awaitCall P i c 0
    | .polling n => s.awaitCall P i c n
    | .returned _ | .raised _ => s

/-- One step of the event loop: the named call or task runs up to its next suspension. -/
def step (P : Inputs Obj Val) (s : State Obj Val) : Caller → State Obj Val
  | .call i => s.stepCall P i
  | .task t => s.stepTask P t

end State

/-- The state after the steps of the schedule `σ`, with the given calls of `resolve`. -/
def exec (P : Inputs Obj Val) (calls : List (List Obj × Kwargs Val)) (σ : List Caller) :
    State Obj Val :=
  run (State.step P) (initial calls) σ

end NexusSdk.Cache
