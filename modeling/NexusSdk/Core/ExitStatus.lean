import NexusSdk.Core.Activate

/-! When the exit status of a run agrees with its committed outcome: the process ends with status 0
exactly if a completion was accepted.  After an accepted completion nothing contains the errors of
telemetry, of the stores and of the algorithm's context. -/

namespace NexusSdk.Core

open Lib

/-- The number that decimal digits denote. -/
def ofDigits (digits : List Char) : Option Nat :=
  if digits ≠ [] ∧ digits.all Char.isDigit then
    some (digits.foldl (fun n d => 10 * n + (d.toNat - '0'.toNat)) 0)
  else none

/-- The code of a `SystemExit`, whose argument is given as text: an integer of any class but `bool` in
decimal, every other object by its `repr`.  One that is neither an integer nor `None` means 1. -/
def systemExitCode (repr : String) : Int :=
  if repr = "None" ∨ repr = "False" then 0
  else
    match repr.toList with
    | '-' :: digits => (ofDigits digits).elim 1 fun n => -n
    | digits => (ofDigits digits).elim 1 fun n => n

/-- The status of a process that exits with the code: its lowest byte; a code that is no C long counts
as -1. -/
def processStatus (code : Int) : Int :=
  (if Int64.minValue.toInt ≤ code ∧ code ≤ Int64.maxValue.toInt then code else -1) % 256

/-- `SystemExit` with a code that means success; `arg` is the code as text. -/
def exitsZero (e : PyExc) : Bool :=
  e.isInstance systemExit && processStatus (systemExitCode e.arg) = 0

example : ["0", "-256", "512", "True", "'0'", "9223372036854775808"].map
    (fun repr => processStatus (systemExitCode repr)) = [0, 0, 0, 1, 1, 255] := by decide

/-- `activate` returns normally or with exit status 0. -/
def endsWithZero : Except Exit Unit → Bool
  | .ok () => true
  | .error exit => exitsZero exit.exc

def Accepted (events : List Activity) : Prop := ∃ c, Activity.completeRun c true ∈ events

/-- How the algorithm run task stops `activate` before the submission. -/
def taskStage : Except PyExc Unit → Except Exit Unit
  | .ok () => .ok ()
  | .error e =>
    if leavesLoop e then .error (.tornDown e)
    else if e.isCancelled || !e.truthy then .error (.raised e)
    else if e.isInstance transientNexusError then .error (.raised (sysExit 1))
    else .ok ()

namespace Stages

/-- The stages before the algorithm's context is open. -/
def untilContext (env : Stages) : List (Except Exit Unit) :=
  [env.constructAlgorithm, env.constructRecorder, env.contextOpen].map (Except.mapError .raised)

/-- The stages up to the accepted completion. -/
def untilCompletion (env : Stages) : List (Except Exit Unit) :=
  [taskStage env.run,
    if env.run.isOk then (env.saveResult.map fun _ => ()).mapError .raised else .ok (),
    env.completeRun.mapError .raised]

def inputTasks (env : Stages) : List (Except Exit Unit) :=
  if env.inputTelemetry then
    match env.recordInputs with
    | .ok tasks => tasks.map tearsDown ++ tasks.map takeException
    | .error e => [.error (.raised e)]
  else []

def recorderTasks (env : Stages) : List (Except Exit Unit) :=
  if env.run.isOk && env.userTelemetry then
    let finished := (env.recorders.filter Recorder.finished).map Recorder.record
    env.recorders.map (fun recorder => recorder.start.mapError .raised) ++
      finished.map tearsDown ++ finished.map takeException
  else []

/-- The stages after the completion. -/
def afterCompletion (env : Stages) : List (Except Exit Unit) :=
  env.inputTasks ++ env.recorderTasks ++ [env.closeStores.mapError .raised]

/-- How the run leaves the algorithm's context if the stages within end with `x`. -/
def leaving (env : Stages) (x : Except Exit Unit) : Except Exit Unit :=
  (withExit ⟨[], x⟩ env.contextClose).outcome

/-- The run is completed with the exception `e` of bootstrap. -/
def reports (env : Stages) (e : PyExc) : Bool :=
  e.isInstance validationError || e.isInstance fatalStartupConfigurationError ||
    e.isInstance httpError && env.httpStatus.any (· ∈ fatalStatusCodes)

/-- The exception that ends a run before the completion is accepted is not a `SystemExit` with code
0, and the one that ends it afterwards, if any, is. -/
def StatusAgrees (env : Stages) : Prop :=
  match env.bootstrap with
  | .error e => env.reports e → ∀ e', env.reportError = .error e' → exitsZero e' = false
  | .ok () =>
    match firstError env.untilContext with
    | .error exit => exitsZero exit.exc = false
    | .ok () =>
      match firstError env.untilCompletion with
      | .error exit => endsWithZero (env.leaving (.error exit)) = false
      | .ok () => endsWithZero (env.leaving (firstError env.afterCompletion)) = true

end Stages

variable {env : Stages}

theorem outcome_withExit (body : Run Unit) :
    (withExit body env.contextClose).outcome = env.leaving body.outcome := by
  obtain ⟨l, _ | _⟩ := body <;> cases h : env.contextClose <;> simp [withExit, Stages.leaving, h]

theorem events_withExit (body : Run Unit) (close : Except PyExc Unit) :
    (withExit body close).events = body.events := by
  obtain ⟨l, _ | _⟩ := body <;> cases close <;> rfl

theorem outcome_startRecorders (k : Nat) (recorders : List Recorder) :
    (startRecorders k recorders).outcome =
      firstError (recorders.map fun recorder => recorder.start.mapError .raised) := by
  induction recorders generalizing k with
  | nil => rfl
  | cons recorder rest ih =>
    rw [startRecorders, Traced.outcome_bind, List.map_cons]
    cases h : recorder.start with
    | error e => simp [stage, Except.mapError, firstError, Except.bind]
    | ok _ =>
      simp only [stage, Except.mapError, Except.bind, Traced.outcome_of, Traced.outcome_bind,
        Traced.emit, firstError, ih]

theorem outcome_reportRecorders (tasks : List (Except PyExc Unit)) :
    (reportRecorders tasks).outcome = firstError (tasks.map takeException) := by
  induction tasks with
  | nil => rfl
  | cons task rest ih =>
    rw [reportRecorders, Traced.outcome_bind, List.map_cons, Traced.outcome_of]
    cases takeException task with
    | error e => rfl
    | ok _ => simpa [Traced.outcome_bind, Traced.emit, Except.bind, firstError] using ih

theorem outcome_record (tasks : List (Except PyExc Unit)) :
    (record tasks).outcome = firstError (tasks.map tearsDown ++ tasks.map takeException) := by
  rw [record, Traced.outcome_bind, firstError_append]
  rfl

theorem outcome_runRecorders (recorders : List Recorder) :
    (runRecorders recorders).outcome =
      firstError (recorders.map (fun recorder => recorder.start.mapError .raised) ++
        ((recorders.filter Recorder.finished).map Recorder.record).map tearsDown ++
        ((recorders.filter Recorder.finished).map Recorder.record).map takeException) := by
  rw [runRecorders, Traced.outcome_bind, outcome_startRecorders, List.append_assoc,
    firstError_append, firstError_append]
  congr 1
  funext _
  rw [Traced.outcome_bind]
  congr 1
  funext _
  rw [Traced.outcome_bind, Traced.outcome_when]
  split <;> exact outcome_reportRecorders _

theorem outcome_recordTelemetry {ex : Option PyExc} (hex : ex.isNone = env.run.isOk) :
    (recordTelemetry env ex).outcome = firstError env.afterCompletion := by
  rw [recordTelemetry, Stages.afterCompletion, firstError_append, firstError_append,
    Traced.outcome_bind, Traced.outcome_when]
  have hinputs : (if env.inputTelemetry then (stage env.recordInputs >>= record).outcome
      else .ok ()) = firstError env.inputTasks := by
    unfold Stages.inputTasks
    cases env.inputTelemetry with
    | false => rfl
    | true =>
      cases h : env.recordInputs with
      | error e => rfl
      | ok tasks => exact outcome_record tasks
  rw [hinputs]
  cases firstError env.inputTasks with
  | error e => rfl
  | ok _ =>
    simp only [Except.bind, Traced.outcome_bind, Traced.outcome_when, hex]
    have hrecorders : (if (env.run.isOk && env.userTelemetry) = true then
        (runRecorders env.recorders).outcome else .ok ()) = firstError env.recorderTasks := by
      unfold Stages.recorderTasks
      split
      · exact outcome_runRecorders env.recorders
      · rfl
    rw [hrecorders]
    cases firstError env.recorderTasks <;> cases env.closeStores <;> rfl

/-- Telemetry requests no completion. -/
theorem completeRun_not_mem_recordTelemetry (c : Completion) (accepted : Bool)
    (ex : Option PyExc) :
    Activity.completeRun c accepted ∉ (recordTelemetry env ex).events := by
  intro hc
  have hstart (k : Nat) (recorders : List Recorder) :
      Activity.completeRun c accepted ∉ (startRecorders k recorders).events := by
    induction recorders generalizing k with
    | nil => simp [startRecorders]
    | cons recorder rest ih => simp [startRecorders, Traced.mem_events_bind, stage, Traced.emit, ih]
  have hreport (tasks : List (Except PyExc Unit)) :
      Activity.completeRun c accepted ∉ (reportRecorders tasks).events := by
    induction tasks with
    | nil => simp [reportRecorders]
    | cons task rest ih => simp [reportRecorders, Traced.mem_events_bind, Traced.emit, ih]
  simp [recordTelemetry, Traced.mem_events_bind, Traced.events_when, stage, record, awaitTasks,
    runRecorders, hstart, hreport, Traced.emit] at hc

theorem not_accepted_recordTelemetry (ex : Option PyExc) :
    ¬ Accepted (recordTelemetry env ex).events := fun ⟨c, hc⟩ =>
  completeRun_not_mem_recordTelemetry c true ex hc

/-- A run goes on from the algorithm run task to the submission, or ends. -/
theorem runAlgorithm_cases (env : Stages) :
    (∃ exit, taskStage env.run = .error exit ∧ runAlgorithm env = .raise exit) ∨
      (∃ ex, ex.isNone = env.run.isOk ∧ taskStage env.run = .ok () ∧
        (∀ e, ex = some e → env.run = .error e ∧ e.isInstance transientNexusError = false) ∧
        isTransientException ex = (if env.run.isOk then none else some false) ∧
        runAlgorithm env = submitResult env ex >>= fun _ => recordTelemetry env ex) := by
  cases hrun : env.run with
  | ok _ =>
    exact .inr ⟨none, rfl, rfl, fun e he => (by cases he), rfl, by rw [runAlgorithm, hrun]; rfl⟩
  | error e =>
    cases hleaves : leavesLoop e with
    | true =>
      refine .inl ⟨.tornDown e, by simp [taskStage, hleaves], ?_⟩
      simp [runAlgorithm, hrun, taskException, hleaves]
    | false =>
    cases hcancelled : e.isCancelled with
    | true =>
      refine .inl ⟨.raised e, by simp [taskStage, hleaves, hcancelled], ?_⟩
      simp [runAlgorithm, hrun, taskException, hleaves, hcancelled, stage, Except.mapError,
        Traced.raise]
    | false =>
    cases htruthy : e.truthy with
    | false =>
      refine .inl ⟨.raised e, by simp [taskStage, hleaves, htruthy], ?_⟩
      simp [runAlgorithm, hrun, taskException, hleaves, hcancelled, taskResult, htruthy, stage,
        Except.mapError, Traced.raise]
    | true =>
    cases htransient : e.isInstance transientNexusError with
    | true =>
      refine .inl ⟨.raised (sysExit 1), ?_, ?_⟩
      · simp [taskStage, hleaves, hcancelled, htruthy, htransient]
      · simp [runAlgorithm, hrun, taskException, hleaves, hcancelled, taskResult, htruthy,
          submitResult, isTransientException, htransient, stage, Except.mapError, Traced.raise]
    | false =>
      refine .inr ⟨some e, rfl, ?_, ?_, ?_, ?_⟩
      · simp [taskStage, hleaves, hcancelled, htruthy, htransient]
      · rintro _ ⟨rfl⟩
        exact ⟨rfl, htransient⟩
      · simp [isTransientException, htruthy, htransient, Except.isOk, Except.toBool]
      · simp [runAlgorithm, hrun, taskException, hleaves, hcancelled, taskResult, htruthy]

/-- The submission ends as its stages do, and its completion is accepted if they succeed. -/
theorem submitResult_spec {ex : Option PyExc} (htask : taskStage env.run = .ok ())
    (hex : isTransientException ex = if env.run.isOk then none else some false) :
    (submitResult env ex).outcome = firstError env.untilCompletion ∧
      (Accepted (submitResult env ex).events ↔ firstError env.untilCompletion = .ok ()) := by
  have hcomplete (c : Completion) (metric : String) :
      (completeRun c env.completeRun >>= fun _ => Traced.emit (.increment metric)).outcome =
          firstError [env.completeRun.mapError .raised] ∧
        (Accepted (completeRun c env.completeRun >>= fun _ =>
            Traced.emit (.increment metric)).events ↔
          firstError [env.completeRun.mapError Exit.raised] = .ok ()) := by
    cases h : env.completeRun with
    | ok _ =>
      refine ⟨rfl, fun _ => rfl, fun _ => ⟨c, ?_⟩⟩
      simp [Traced.mem_events_bind, completeRun, Except.isOk, Except.toBool]
    | error e =>
      refine ⟨rfl, fun hacc => ?_, fun hok => ?_⟩
      · obtain ⟨c', hc'⟩ := hacc
        simp [Traced.mem_events_bind, completeRun, Except.isOk, Except.toBool,
          Except.mapError] at hc'
      · cases hok
  rw [Stages.untilCompletion, htask]
  cases hrun : env.run.isOk with
  | false =>
    rw [hrun] at hex
    cases ex with
    | none => cases hex
    | some e =>
      have hex' : isTransientException (some e) = some false := hex
      unfold submitResult
      rw [hex']
      exact hcomplete (.error e) "failed_runs"
  | true =>
    rw [hrun, if_pos rfl] at hex
    have hsubmit : submitResult env ex = stage env.saveResult >>= fun uri =>
        completeRun (.result uri) env.completeRun >>= fun _ =>
          .emit (.increment "successful_runs") := by
      unfold submitResult
      rw [hex]
    rw [hsubmit]
    cases hsave : env.saveResult with
    | error e =>
      refine ⟨rfl, fun hacc => ?_, fun hok => ?_⟩
      · obtain ⟨c, hc⟩ := hacc
        simp [stage, Except.mapError] at hc
      · cases hok
    | ok uri => exact hcomplete (.result uri) "successful_runs"

theorem outcome_runAlgorithm :
    (runAlgorithm env).outcome = firstError (env.untilCompletion ++ env.afterCompletion) := by
  rw [firstError_append]
  rcases runAlgorithm_cases env with ⟨exit, htask, hrun⟩ | ⟨ex, hex, htask, -, htransient, hrun⟩
  · rw [hrun, Stages.untilCompletion, htask]
    rfl
  · rw [hrun, Traced.outcome_bind, (submitResult_spec htask htransient).1,
      outcome_recordTelemetry hex]

theorem accepted_runAlgorithm :
    Accepted (runAlgorithm env).events ↔ firstError env.untilCompletion = .ok () := by
  rcases runAlgorithm_cases env with ⟨exit, htask, hrun⟩ | ⟨ex, hex, htask, -, htransient, hrun⟩
  · rw [hrun, Stages.untilCompletion, htask]
    constructor
    · rintro ⟨c, hc⟩
      simp [Traced.raise] at hc
    · simp [firstError]
  · rw [hrun, ← (submitResult_spec htask htransient).2]
    constructor
    · rintro ⟨c, hc⟩
      rcases Traced.mem_events_bind.mp hc with hc | ⟨_, -, hc⟩
      · exact ⟨c, hc⟩
      · exact absurd ⟨c, hc⟩ (not_accepted_recordTelemetry ex)
    · rintro ⟨c, hc⟩
      exact ⟨c, Traced.mem_events_bind.mpr (.inl hc)⟩

/-! ### The whole run -/

theorem handleBootstrapError_of_reports {e : PyExc} (h : env.reports e = true) :
    handleBootstrapError env e = completeWithError env e := by
  unfold handleBootstrapError
  split
  · rfl
  · next hvalidation =>
    split
    · rfl
    · next hfatal =>
      rw [Stages.reports, (Bool.not_eq_true _).mp hvalidation, (Bool.not_eq_true _).mp hfatal,
        Bool.false_or, Bool.false_or, Bool.and_eq_true] at h
      obtain ⟨status, hstatus, hmem⟩ := (Option.any_eq_true _ _).mp h.2
      simp only [h.1, hstatus, if_true]
      rw [if_pos (by simpa using hmem)]

theorem handleBootstrapError_of_not_reports {e : PyExc} (h : env.reports e = false) :
    ∃ e', handleBootstrapError env e = stage (.error e') ∧ exitsZero e' = false := by
  rw [Stages.reports, Bool.or_eq_false_iff, Bool.or_eq_false_iff] at h
  unfold handleBootstrapError
  rw [h.1.1, h.1.2]
  simp only [Bool.false_eq_true, if_false]
  split
  · next hhttp =>
    split
    · exact ⟨_, rfl, by decide⟩
    · next status hstatus =>
      have hmem : status ∉ fatalStatusCodes := by simpa [hhttp, hstatus] using h.2
      rw [if_neg hmem]
      exact ⟨_, rfl, by decide⟩
  · exact ⟨_, rfl, by decide⟩

theorem runEntered_of_bootstrap_error {e : PyExc} (h : env.bootstrap = .error e)
    {exit : Exit} (hexit : (handleBootstrapError env e).outcome = .error exit) :
    (runEntered env).outcome = .error (exit.during (.raised e)) ∧
      (runEntered env).events = (handleBootstrapError env e).events := by
  have hboot : runBootstrap env =
      ⟨(handleBootstrapError env e).events, .error (exit.during (.raised e))⟩ := by
    simp [runBootstrap, h, hexit, Except.mapError]
  rw [runEntered, hboot, Traced.mk_error_bind]
  exact ⟨rfl, rfl⟩

/-- The run ends with status 0 after the report was accepted. -/
theorem runEntered_of_reported {e : PyExc} (hboot : env.bootstrap = .error e)
    (hreports : env.reports e = true) (hreport : env.reportError = .ok ()) :
    (runEntered env).outcome = .error ((Exit.raised (sysExit 0)).during (.raised e)) ∧
      (runEntered env).events = [.completeRun (.error e) true] := by
  have hexit : handleBootstrapError env e =
      ⟨[.completeRun (.error e) true], .error (.raised (sysExit 0))⟩ := by
    rw [handleBootstrapError_of_reports hreports, completeWithError, hreport]
    rfl
  obtain ⟨hout, hev⟩ := runEntered_of_bootstrap_error hboot (by rw [hexit])
  exact ⟨hout, by rw [hev, hexit]⟩

theorem runEntered_of_report_failed {e e' : PyExc} (hboot : env.bootstrap = .error e)
    (hreports : env.reports e = true) (hreport : env.reportError = .error e') :
    (runEntered env).outcome = .error ((Exit.raised e').during (.raised e)) ∧
      (runEntered env).events = [.completeRun (.error e) false] := by
  have hexit : handleBootstrapError env e =
      ⟨[.completeRun (.error e) false], .error (.raised e')⟩ := by
    rw [handleBootstrapError_of_reports hreports, completeWithError, hreport]
    rfl
  obtain ⟨hout, hev⟩ := runEntered_of_bootstrap_error hboot (by rw [hexit])
  exact ⟨hout, by rw [hev, hexit]⟩

theorem runEntered_of_bootstrap_ok (h : env.bootstrap = .ok ()) :
    (runEntered env).outcome =
        (firstError env.untilContext).bind (fun _ => env.leaving (runAlgorithm env).outcome) ∧
      (Accepted (runEntered env).events ↔
        firstError env.untilContext = .ok () ∧ Accepted (runAlgorithm env).events) := by
  have hboot : runBootstrap env = .of (.ok ()) := by simp [runBootstrap, h]
  rw [runEntered, hboot, Traced.of_ok_bind, Stages.untilContext]
  cases halg : env.constructAlgorithm with
  | error e => exact ⟨rfl, by simp [Accepted, stage, Except.mapError, firstError]⟩
  | ok _ =>
  cases hrec : env.constructRecorder with
  | error e => exact ⟨rfl, by simp [Accepted, stage, Except.mapError, firstError]⟩
  | ok _ =>
  cases hopen : env.contextOpen with
  | error e => exact ⟨rfl, by simp [Accepted, stage, Except.mapError, firstError]⟩
  | ok _ =>
    refine ⟨outcome_withExit (runAlgorithm env), ?_⟩
    show Accepted (withExit (runAlgorithm env) env.contextClose).events ↔ _
    rw [events_withExit]
    simp [Except.mapError, firstError]

theorem runEntered_status (env : Stages) :
    ((endsWithZero (runEntered env).outcome = true ↔ Accepted (runEntered env).events) ↔
      env.StatusAgrees) := by
  unfold Stages.StatusAgrees
  cases hboot : env.bootstrap with
  | error e =>
    cases hreports : env.reports e with
    | true =>
      cases hreport : env.reportError with
      | ok _ =>
        obtain ⟨hout, hev⟩ := runEntered_of_reported hboot hreports hreport
        rw [hout, hev]
        have hzero : exitsZero (sysExit 0) = true := by decide
        simp only [reduceCtorEq, false_implies, implies_true, iff_true]
        exact ⟨fun _ => ⟨_, List.mem_singleton_self _⟩, fun _ => hzero⟩
      | error e' =>
        obtain ⟨hout, hev⟩ := runEntered_of_report_failed hboot hreports hreport
        rw [hout, hev]
        have hzero : endsWithZero (.error (Exit.during (.raised e') (.raised e))) = exitsZero e' :=
          rfl
        simp [hzero, Accepted, hreports]
    | false =>
      obtain ⟨e', hexit, hzero⟩ := handleBootstrapError_of_not_reports hreports
      obtain ⟨hout, hev⟩ := runEntered_of_bootstrap_error hboot (by rw [hexit]; rfl)
      rw [hout, hev, hexit]
      have hzero' : endsWithZero (.error (Exit.during (.raised e') (.raised e))) = false := hzero
      simp [hzero', Accepted, stage, hreports]
  | ok _ =>
    obtain ⟨hout, hacc⟩ := runEntered_of_bootstrap_ok hboot
    rw [hout, hacc, accepted_runAlgorithm, outcome_runAlgorithm, firstError_append]
    cases hcontext : firstError env.untilContext with
    | error exit => simp [Except.bind, endsWithZero]
    | ok _ =>
      cases hcompletion : firstError env.untilCompletion with
      | error exit => simp [Except.bind]
      | ok _ => simp [Except.bind]

theorem activate_of_entered (hload : env.load = .ok ()) (henter : env.enter = .ok ()) :
    activate env = runEntered env := by
  rw [activate, hload, henter]
  rfl

def smoothRun : Stages where
  load := .ok ()
  enter := .ok ()
  bootstrap := .ok ()
  httpStatus := none
  reportError := .ok ()
  constructAlgorithm := .ok ()
  constructRecorder := .ok ()
  contextOpen := .ok ()
  run := .ok ()
  saveResult := .ok "uri"
  completeRun := .ok ()
  inputTelemetry := true
  recordInputs := .ok [.ok ()]
  userTelemetry := true
  recorders := []
  closeStores := .ok ()
  contextClose := .ok ()

end NexusSdk.Core
