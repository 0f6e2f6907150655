import NexusSdk.Exceptions
import NexusSdk.Lib.Traced

/-! `Nexus.activate`: the stages of a run from the load of the configuration to the end of the
process.  What a stage does is a parameter; the model follows the exceptions and the completions.
Loggers and metrics providers do not fail, and tasks that are cancelled because the loop ends do not
stop it again. -/

namespace NexusSdk.Core

open Lib

def validationError : PyClass := .extend "dynaconf.validator.ValidationError" [valueError]

def httpError : PyClass :=
  .extend "requests.exceptions.HTTPError"
    [.extend "requests.exceptions.RequestException" [.extend "OSError" [exception]]]

/-- `SdkCompletedRunResult.create(result_uri=..., error=...)`. -/
inductive Completion
  | result (uri : String)
  | error (e : PyExc)
  deriving DecidableEq

inductive Activity
  /-- `receiver.complete_run`; `accepted` when it returns. -/
  | completeRun (completion : Completion) (accepted : Bool)
  /-- The task of the on_complete recorder number `k` is created. -/
  | startRecorder (k : Nat)
  | increment (metric : String)
  deriving DecidableEq

/-- How `activate` ends early: with an exception in its own coroutine, or with a `SystemExit` or
`KeyboardInterrupt` of another task, which stops the event loop. -/
inductive Exit
  | raised (e : PyExc)
  | tornDown (e : PyExc)
  deriving DecidableEq

def Exit.exc : Exit → PyExc
  | raised e => e
  | tornDown e => e

abbrev Run := Traced Activity Exit

/-- `sys.exit(code)`. -/
def sysExit (code : Nat) : PyExc := .raised systemExit (toString code)

/-- The event loop does not keep such an exception in its task: it stops with it. -/
def leavesLoop (e : PyExc) : Bool := e.isInstance systemExit || e.isInstance keyboardInterrupt

/-- An on_complete recorder of a successful run. -/
structure Recorder where
  /-- its construction by the injector and the call that creates its task -/
  start : Except PyExc Unit
  record : Except PyExc Unit
  /-- its task is done when `asyncio.wait` returns -/
  finished : Bool

/-- What the stages of a run do. -/
structure Stages where
  /-- `self._base_configuration.load()` and the executor of the loop -/
  load : Except PyExc Unit
  /-- `NexusBootstrapper.__aenter__` -/
  enter : Except PyExc Unit
  bootstrap : Except PyExc Unit
  /-- the status code of the response of an `HTTPError`, if it has one -/
  httpStatus : Option Nat
  /-- the receiver client of `_complete_with_error` -/
  reportError : Except PyExc Unit
  constructAlgorithm : Except PyExc Unit
  constructRecorder : Except PyExc Unit
  /-- `_context_open` of the algorithm -/
  contextOpen : Except PyExc Unit
  /-- the algorithm run task -/
  run : Except PyExc Unit
  saveResult : Except PyExc String
  completeRun : Except PyExc Unit
  inputTelemetry : Bool
  /-- the call of `TelemetryRecorder.record`, and how its tasks end -/
  recordInputs : Except PyExc (List (Except PyExc Unit))
  userTelemetry : Bool
  recorders : List Recorder
  /-- the QES collection: `self._injector.get` and `close` -/
  closeStores : Except PyExc Unit
  /-- `_context_close` of the algorithm -/
  contextClose : Except PyExc Unit

/-- Check if the exception is retryable. -/
def isTransientException : Option PyExc → Option Bool
  | none => none
  | some e =>
    if !e.truthy then none
    else if e.isInstance transientNexusError then some true
    else if e.isInstance fatalNexusError then some false
    else some false

/-- A stage of the coroutine itself. -/
def stage (x : Except PyExc α) : Run α := .of (x.mapError .raised)

def completeRun (completion : Completion) (outcome : Except PyExc Unit) : Run Unit :=
  ⟨[.completeRun completion outcome.isOk], outcome.mapError .raised⟩

/-- `e` raised while `pending` is handled.  While a loop that was stopped is torn down, the coroutine
is cancelled, and of the exceptions it ends with only those that stop the loop again are seen. -/
def Exit.during : Exit → Exit → Exit
  | raised e, raised pending => raised (e.during pending)
  | tornDown e, _ => tornDown e
  | raised e, tornDown pending => if leavesLoop e then tornDown e else tornDown pending

/-- `async with` around `body`: its exit raises or not, after `body` ended in any way. -/
def withExit (body : Run Unit) (close : Except PyExc Unit) : Run Unit :=
  match body.outcome, close with
  | _, .ok () => body
  | .ok (), .error e => ⟨body.events, .error (.raised e)⟩
  | .error pending, .error e => ⟨body.events, .error ((Exit.raised e).during pending)⟩

/-- `_submit_result`. -/
def submitResult (env : Stages) (ex : Option PyExc) : Run Unit :=
  match isTransientException ex, ex with
  | none, _ => do
    let uri ← stage env.saveResult
    completeRun (.result uri) env.completeRun
    .emit (.increment "successful_runs")
  | some false, some e => do
    completeRun (.error e) env.completeRun
    .emit (.increment "failed_runs")
  | _, _ => stage (.error (sysExit 1))

/-- `_complete_with_error` and `sys.exit(0)`. -/
def completeWithError (env : Stages) (e : PyExc) : Run Unit := do
  completeRun (.error e) env.reportError
  stage (.error (sysExit 0))

/-- Non-retryable status codes. -/
def fatalStatusCodes : List Nat := [401, 403, 410, 405, 501, 505]

/-- The `except` clauses around `bootstrap`. -/
def handleBootstrapError (env : Stages) (e : PyExc) : Run Unit :=
  if e.isInstance validationError then completeWithError env e
  else if e.isInstance fatalStartupConfigurationError then completeWithError env e
  else if e.isInstance httpError then
    match env.httpStatus with
    | none =>
      stage (.error (.raised attributeError "'NoneType' object has no attribute 'status_code'"))
    | some status =>
      if status ∈ fatalStatusCodes then completeWithError env e else stage (.error (sysExit 1))
  else stage (.error (sysExit 1))

/-- `bootstrap` with its `except` clauses, whose exceptions have the handled one as context. -/
def runBootstrap (env : Stages) : Run Unit :=
  match env.bootstrap with
  | .ok () => pure ()
  | .error e =>
    let handler := handleBootstrapError env e
    ⟨handler.events, handler.outcome.mapError fun exit => exit.during (.raised e)⟩

/-- The exception of the algorithm run task, which is done. -/
def taskException (run : Except PyExc Unit) : Run (Option PyExc) :=
  match run with
  | .ok () => pure none
  | .error e =>
    if leavesLoop e then .raise (.tornDown e)
    else if e.isCancelled then stage (.error e)
    else pure (some e)

/-- `self._algorithm_run_task.result() if not ex else None`: an exception whose truth value is false
is raised again. -/
def taskResult : Option PyExc → Run Unit
  | some e => if e.truthy then pure () else stage (.error e)
  | none => pure ()

/-- What the end of a task does to the event loop. -/
def tearsDown : Except PyExc Unit → Except Exit Unit
  | .error e => if leavesLoop e then .error (.tornDown e) else .ok ()
  | .ok () => .ok ()

/-- What `exception()` of a task that is done does. -/
def takeException : Except PyExc Unit → Except Exit Unit
  | .error e => if e.isCancelled then .error (.raised e) else .ok ()
  | .ok () => .ok ()

/-- `asyncio.wait` for tasks that end in the given order. -/
def awaitTasks (tasks : List (Except PyExc Unit)) : Run Unit :=
  .of (firstError (tasks.map tearsDown))

/-- `TelemetryRecorder.record`: exceptions of its tasks are logged. -/
def record (tasks : List (Except PyExc Unit)) : Run Unit := do
  awaitTasks tasks
  .of (firstError (tasks.map takeException))

/-- The tasks of the on_complete recorders are created, the first of them number `k`. -/
def startRecorders (k : Nat) : List Recorder → Run Unit
  | [] => pure ()
  | recorder :: rest => do
    stage recorder.start
    .emit (.startRecorder k)
    startRecorders (k + 1) rest

/-- The counter of an on_complete recorder whose task is done. -/
def reportMetric : Except PyExc Unit → String
  | .error e => if e.truthy then "telemetry_reports_failed" else "telemetry_reports_succeeded"
  | .ok () => "telemetry_reports_succeeded"

/-- The loop over the recorder tasks that are done. -/
def reportRecorders : List (Except PyExc Unit) → Run Unit
  | [] => pure ()
  | task :: rest => do
    .of (takeException task)
    .emit (.increment (reportMetric task))
    reportRecorders rest

/-- The on_complete recorders of a successful run. -/
def runRecorders (recorders : List Recorder) : Run Unit := do
  startRecorders 0 recorders
  let finished := (recorders.filter Recorder.finished).map Recorder.record
  awaitTasks finished
  .when (recorders.any fun recorder => !recorder.finished)
    (.emit (.increment "telemetry_reports_incomplete"))
  reportRecorders finished

/-- What follows the submission of the result. -/
def recordTelemetry (env : Stages) (ex : Option PyExc) : Run Unit := do
  .when env.inputTelemetry (stage env.recordInputs >>= record)
  .when (ex.isNone && env.userTelemetry) (runRecorders env.recorders)
  stage env.closeStores

def runAlgorithm (env : Stages) : Run Unit := do
  let ex ← taskException env.run
  taskResult ex
  submitResult env ex
  recordTelemetry env ex

/-- `Nexus.activate` after the bootstrapper's `__aenter__`. -/
def runEntered (env : Stages) : Run Unit := do
  runBootstrap env
  stage env.constructAlgorithm
  stage env.constructRecorder
  stage env.contextOpen
  withExit (runAlgorithm env) env.contextClose

def activate (env : Stages) : Run Unit := do
  stage env.load
  stage env.enter
  runEntered env

end NexusSdk.Core
