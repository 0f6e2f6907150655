import NexusSdk.Core.ExitStatus

/-! What a run reports: at most one completion, which tells the truth about the algorithm run task
and the result, and never one of a transient failure. -/

namespace NexusSdk.Core

open Lib

/-! ### The completion that the Go library receives -/

/-- The texts of the struct for the Go library; `None` is a null pointer. -/
structure SdkCompletedRunResult where
  resultUri : Option String
  errorCause : Option String
  errorDetails : Option String
  deriving DecidableEq

section Create

-- `str` of an exception, and its formatted traceback
variable (str traceback : PyExc → String)

/-- `bytes(text, encoding="utf-8") if text else None`. -/
def nonEmpty (text : Option String) : Option String := text.filter fun s => s ≠ ""

def SdkCompletedRunResult.create (resultUri : Option String) (error : Option PyExc) :
    SdkCompletedRunResult :=
  match error.filter PyExc.truthy with
  | some e =>
    ⟨nonEmpty resultUri, nonEmpty (some ("<class '" ++ e.cls.name ++ "'>: " ++ str e ++ ")")),
      nonEmpty (some (traceback e))⟩
  | none => ⟨nonEmpty resultUri, none, none⟩

def Completion.submitted : Completion → SdkCompletedRunResult
  | result uri => .create str traceback (some uri) none
  | error e => .create str traceback none (some e)

end Create

namespace SdkCompletedRunResult

def carriesError (r : SdkCompletedRunResult) : Bool := r.errorCause.isSome || r.errorDetails.isSome

def carriesUri (r : SdkCompletedRunResult) (uri : String) : Bool := r.resultUri = some uri

end SdkCompletedRunResult

theorem Completion.of_carriesUri {str traceback : PyExc → String} {c : Completion} {uri : String}
    (h : (c.submitted str traceback).carriesUri uri = true) : c = .result uri := by
  cases c with
  | result uri' =>
    have huri : nonEmpty (some uri') = some uri := of_decide_eq_true h
    obtain ⟨hsome, -⟩ := Option.filter_eq_some_iff.mp huri
    rw [Option.some.inj hsome]
  | error e =>
    have hnone : (SdkCompletedRunResult.create str traceback none (some e)).resultUri = none := by
      unfold SdkCompletedRunResult.create
      split <;> rfl
    simp [Completion.submitted, SdkCompletedRunResult.carriesUri, hnone] at h

theorem Completion.of_carriesError {str traceback : PyExc → String} {c : Completion}
    (h : (c.submitted str traceback).carriesError = true) : ∃ e, c = .error e := by
  cases c with
  | error e => exact ⟨e, rfl⟩
  | result uri => cases h

/-! ### The exit code -/

/-- The code with which the interpreter exits. -/
def exitCode : Except Exit Unit → Int
  | .ok () => 0
  | .error exit =>
    if exit.exc.isInstance systemExit then systemExitCode exit.exc.arg
    else if exit.exc.isInstance keyboardInterrupt then 130
    else 1

theorem exitCode_of_stays {exit : Exit} (h : leavesLoop exit.exc = false) :
    exitCode (.error exit) = 1 := by
  rw [leavesLoop, Bool.or_eq_false_iff] at h
  simp [exitCode, h.1, h.2]

theorem exitCode_sysExit_one : exitCode (.error (.raised (sysExit 1))) = 1 := by
  decide +kernel

/-! ### Truthful completions -/

namespace Stages

/-- The algorithm run task is created. -/
def TaskRan (env : Stages) : Prop :=
  ∀ x ∈ [env.load, env.enter, env.bootstrap, env.constructAlgorithm, env.constructRecorder,
    env.contextOpen], x = .ok ()

/-- The completion says how the run went. -/
def Truthful (env : Stages) : Completion → Prop
  | .result uri => env.TaskRan ∧ env.run = .ok () ∧ env.saveResult = .ok uri
  | .error e =>
    env.bootstrap = .error e ∧ env.reports e = true ∨
      env.TaskRan ∧ env.run = .error e ∧ e.isInstance transientNexusError = false

end Stages

/-- A run without a completion does nothing; otherwise it starts with its only completion, and
recorders are started only after the acceptance of a result. -/
def ReportedFirst (P : Completion → Prop) : List Activity → Prop
  | [] => True
  | first :: rest => ∃ c accepted, first = .completeRun c accepted ∧ P c ∧
      (∀ c' accepted', .completeRun c' accepted' ∉ rest) ∧
      ((∃ k, .startRecorder k ∈ rest) → accepted = true ∧ ∃ uri, c = .result uri)

variable {env : Stages}

theorem startRecorder_mem_recordTelemetry {k : Nat} {ex : Option PyExc}
    (h : Activity.startRecorder k ∈ (recordTelemetry env ex).events) : ex = none := by
  cases ex with
  | none => rfl
  | some e =>
    simp [recordTelemetry, Traced.mem_events_bind, Traced.events_when, stage, record,
      awaitTasks] at h

/-- A submission, and what follows it if it succeeds. -/
theorem reportedFirst_of_submission {P : Completion → Prop} {c : Completion} (hc : P c)
    (outcome : Except PyExc Unit) (metric : String) {ex : Option PyExc}
    (hex : ex = none → ∃ uri, c = .result uri) :
    ReportedFirst P ((completeRun c outcome >>= fun _ => Traced.emit (.increment metric)) >>=
      fun _ => recordTelemetry env ex).events := by
  cases outcome with
  | error e => exact ⟨c, false, rfl, hc, by simp, by simp⟩
  | ok _ =>
    have hevents : ((completeRun c (.ok ()) >>= fun _ => Traced.emit (.increment metric)) >>=
        fun _ => recordTelemetry env ex).events =
          .completeRun c true :: .increment metric :: (recordTelemetry env ex).events := rfl
    rw [hevents]
    refine ⟨c, true, rfl, hc, fun c' accepted' h => ?_, fun ⟨k, h⟩ => ⟨rfl, hex ?_⟩⟩
    · exact completeRun_not_mem_recordTelemetry c' accepted' ex (by simpa using h)
    · exact startRecorder_mem_recordTelemetry (k := k) (by simpa using h)

theorem reportedFirst_runAlgorithm (hran : env.TaskRan) :
    ReportedFirst env.Truthful (runAlgorithm env).events := by
  rcases runAlgorithm_cases env with ⟨exit, -, hrun⟩ | ⟨ex, hex, -, hexception, htransient, hrun⟩
  · rw [hrun]
    trivial
  rw [hrun]
  cases ex with
  | none =>
    have hok : env.run = .ok () := by
      cases h : env.run with
      | ok _ => rfl
      | error e => simp [h, Except.isOk, Except.toBool] at hex
    simp only [submitResult, isTransientException]
    cases hsave : env.saveResult with
    | error e => trivial
    | ok uri =>
      exact reportedFirst_of_submission (c := .result uri) ⟨hran, hok, hsave⟩ env.completeRun
        "successful_runs" fun _ => ⟨uri, rfl⟩
  | some e =>
    obtain ⟨hrun, hnot⟩ := hexception e rfl
    have hfalse : isTransientException (some e) = some false := by
      rw [htransient, hrun]
      rfl
    simp only [submitResult, hfalse]
    exact reportedFirst_of_submission (c := .error e) (.inr ⟨hran, hrun, hnot⟩) env.completeRun
      "failed_runs" fun h => by cases h

theorem reportedFirst_handleBootstrapError {e : PyExc} (h : env.bootstrap = .error e) :
    ReportedFirst env.Truthful (handleBootstrapError env e).events := by
  cases hreports : env.reports e with
  | true =>
    rw [handleBootstrapError_of_reports hreports, completeWithError]
    cases env.reportError with
    | ok _ => exact ⟨.error e, true, rfl, .inl ⟨h, hreports⟩, by simp [stage], by simp [stage]⟩
    | error e' => exact ⟨.error e, false, rfl, .inl ⟨h, hreports⟩, by simp, by simp⟩
  | false =>
    obtain ⟨e', he', -⟩ := handleBootstrapError_of_not_reports hreports
    rw [he']
    trivial

/-- A run whose task is created is the run of the algorithm, with the exit of its context. -/
theorem activate_of_taskRan (h : env.TaskRan) :
    activate env = withExit (runAlgorithm env) env.contextClose := by
  simp only [Stages.TaskRan, List.forall_mem_cons] at h
  obtain ⟨hload, henter, hboot, halg, hrec, hopen, -⟩ := h
  rw [activate, hload, henter]
  show runEntered env = _
  rw [runEntered, runBootstrap, hboot, halg, hrec, hopen]
  rfl

theorem handleBootstrapError_ne_ok (e : PyExc) : (handleBootstrapError env e).outcome ≠ .ok () := by
  cases hreports : env.reports e with
  | true =>
    rw [handleBootstrapError_of_reports hreports, completeWithError, Traced.outcome_bind]
    cases (completeRun (.error e) env.reportError).outcome <;>
      simp [Except.bind, stage, Except.mapError]
  | false =>
    obtain ⟨e', he', -⟩ := handleBootstrapError_of_not_reports hreports
    simp [he', stage, Except.mapError]

theorem reportedFirst_activate (env : Stages) :
    ReportedFirst env.Truthful (activate env).events := by
  by_cases hran : env.TaskRan
  · rw [activate_of_taskRan hran, events_withExit]
    exact reportedFirst_runAlgorithm hran
  -- a stage before the task fails: only the failure of bootstrap is reported
  cases hload : env.load with
  | error e => simp only [activate, hload]; trivial
  | ok _ =>
  cases henter : env.enter with
  | error e => simp only [activate, hload, henter]; trivial
  | ok _ =>
  rw [activate_of_entered hload henter]
  cases hboot : env.bootstrap with
  | error e =>
    cases hout : (handleBootstrapError env e).outcome with
    | ok _ => exact absurd hout (handleBootstrapError_ne_ok e)
    | error exit =>
      rw [(runEntered_of_bootstrap_error hboot hout).2]
      exact reportedFirst_handleBootstrapError hboot
  | ok _ =>
  rw [runEntered, runBootstrap, hboot, Traced.pure_def, Traced.of_ok_bind]
  cases halg : env.constructAlgorithm with
  | error e => trivial
  | ok _ =>
  cases hrec : env.constructRecorder with
  | error e => trivial
  | ok _ =>
  cases hopen : env.contextOpen with
  | error e => trivial
  | ok _ =>
    exact absurd (by simp [Stages.TaskRan, hload, henter, hboot, halg, hrec, hopen]) hran

/-! ### Reports -/

def requested : Activity → Option Completion
  | .completeRun c _ => some c
  | _ => none

/-- The completions that a run requests. -/
def completions (events : List Activity) : List Completion := events.filterMap requested

theorem mem_completions {events : List Activity} {c : Completion} :
    c ∈ completions events ↔ ∃ accepted, .completeRun c accepted ∈ events := by
  unfold completions
  rw [List.mem_filterMap]
  constructor
  · rintro ⟨activity, hmem, hc⟩
    cases activity with
    | completeRun c' accepted =>
      obtain rfl := Option.some.inj hc
      exact ⟨accepted, hmem⟩
    | startRecorder k => cases hc
    | increment metric => cases hc
  · rintro ⟨accepted, hmem⟩
    exact ⟨_, hmem, rfl⟩

theorem ReportedFirst.completions {P : Completion → Prop} {events : List Activity}
    (h : ReportedFirst P events) :
    completions events = [] ∨ ∃ c, P c ∧ completions events = [c] := by
  cases events with
  | nil => exact .inl rfl
  | cons first rest =>
    obtain ⟨c, accepted, rfl, hc, hrest, -⟩ := h
    refine .inr ⟨c, hc, ?_⟩
    have hnil : Core.completions rest = [] := by
      refine List.eq_nil_iff_forall_not_mem.mpr fun c' hc' => ?_
      obtain ⟨accepted', hmem⟩ := mem_completions.mp hc'
      exact hrest c' accepted' hmem
    show c :: Core.completions rest = [c]
    rw [hnil]

theorem ReportedFirst.recorder {P : Completion → Prop} {before after : List Activity} {k : Nat}
    (h : ReportedFirst P (before ++ .startRecorder k :: after)) :
    ∃ uri, .completeRun (.result uri) true ∈ before := by
  cases before with
  | nil =>
    obtain ⟨c, accepted, hfirst, -⟩ := h
    cases hfirst
  | cons first rest =>
    obtain ⟨c, accepted, rfl, -, -, hrecorder⟩ := h
    obtain ⟨rfl, uri, rfl⟩ := hrecorder ⟨k, by simp⟩
    exact ⟨uri, List.mem_cons_self⟩

/-- The task stage of a transient failure ends the run with exit code 1. -/
theorem exitCode_taskStage {e : PyExc} (htransient : e.isInstance transientNexusError = true)
    (hstays : leavesLoop e = false) :
    ∃ exit, taskStage (.error e) = .error exit ∧ exitCode (.error exit) = 1 := by
  cases hearly : e.isCancelled || !e.truthy with
  | true => exact ⟨.raised e, by simp [taskStage, hstays, hearly], exitCode_of_stays hstays⟩
  | false =>
    exact ⟨.raised (sysExit 1), by simp [taskStage, hstays, hearly, htransient],
      exitCode_sysExit_one⟩

/-- The exit of the algorithm's context keeps the exit code 1, if it does not stop the loop. -/
theorem exitCode_leaving {exit : Exit} (hexit : exitCode (.error exit) = 1)
    (hclose : ∀ e, env.contextClose = .error e → leavesLoop e = false) :
    exitCode (env.leaving (.error exit)) = 1 := by
  unfold Stages.leaving withExit
  cases h : env.contextClose with
  | ok _ => exact hexit
  | error e =>
    cases exit with
    | raised pending => exact exitCode_of_stays (hclose e h)
    | tornDown pending =>
      have hstays : (Exit.raised e).during (.tornDown pending) = .tornDown pending :=
        if_neg (by simp [hclose e h])
      exact (congrArg (fun exit => exitCode (.error exit)) hstays).trans hexit

/-- A run is reported once and truthfully. -/
structure ReportedTruthfully (str traceback : PyExc → String) (env : Stages) : Prop where
  once : (completions (activate env).events).length ≤ 1
  result : ∀ c ∈ completions (activate env).events, ∀ uri,
    (c.submitted str traceback).carriesUri uri = true →
      (c.submitted str traceback).carriesError = false ∧
        env.TaskRan ∧ env.run = .ok () ∧ env.saveResult = .ok uri
  error : ∀ c ∈ completions (activate env).events,
    (c.submitted str traceback).carriesError = true →
      (∃ e, env.bootstrap = .error e ∧ env.reports e = true) ∨
        ∃ e, env.TaskRan ∧ env.run = .error e ∧ e.isInstance transientNexusError = false
  /-- no completion of a transient failure, and exit code 1 unless the event loop is stopped -/
  transient : ∀ e, env.TaskRan → env.run = .error e → e.isInstance transientNexusError = true →
    completions (activate env).events = [] ∧
      (leavesLoop e = false → (∀ e', env.contextClose = .error e' → leavesLoop e' = false) →
        exitCode (activate env).outcome = 1)
  recorders : ∀ before k after, (activate env).events = before ++ .startRecorder k :: after →
    ∃ uri, .completeRun (.result uri) true ∈ before

theorem completions_truthful (env : Stages) :
    ∀ c ∈ completions (activate env).events, env.Truthful c := by
  intro c hc
  rcases (reportedFirst_activate env).completions with h | ⟨c', hc', h⟩
  · simp [h] at hc
  · obtain rfl : c = c' := by simpa [h] using hc
    exact hc'

/-- Nothing is requested for a transient failure of the task. -/
theorem completions_of_transient {e : PyExc} (hran : env.TaskRan) (hrun : env.run = .error e)
    (htransient : e.isInstance transientNexusError = true) :
    completions (activate env).events = [] := by
  refine List.eq_nil_iff_forall_not_mem.mpr fun c hc => ?_
  have htruth := completions_truthful env c hc
  cases c with
  | result uri =>
    rw [htruth.2.1] at hrun
    cases hrun
  | error e' =>
    rcases htruth with ⟨hboot, -⟩ | ⟨-, hrun', hnot⟩
    · have hok : env.bootstrap = .ok () := hran _ (by simp)
      rw [hok] at hboot
      cases hboot
    · rw [hrun] at hrun'
      obtain rfl := Except.error.inj hrun'
      rw [htransient] at hnot
      cases hnot

theorem exitCode_of_transient {e : PyExc} (hran : env.TaskRan) (hrun : env.run = .error e)
    (htransient : e.isInstance transientNexusError = true) (hstays : leavesLoop e = false)
    (hclose : ∀ e', env.contextClose = .error e' → leavesLoop e' = false) :
    exitCode (activate env).outcome = 1 := by
  obtain ⟨exit, htask, hexit⟩ := exitCode_taskStage htransient hstays
  rw [activate_of_taskRan hran, outcome_withExit, outcome_runAlgorithm, Stages.untilCompletion,
    hrun, htask]
  exact exitCode_leaving hexit hclose

theorem reported_once_truthfully (str traceback : PyExc → String) (env : Stages) :
    ReportedTruthfully str traceback env where
  once := by
    rcases (reportedFirst_activate env).completions with h | ⟨c, -, h⟩ <;> simp [h]
  result c hc uri huri := by
    obtain rfl := Completion.of_carriesUri huri
    exact ⟨rfl, completions_truthful env _ hc⟩
  error c hc herror := by
    obtain ⟨e, rfl⟩ := Completion.of_carriesError herror
    rcases completions_truthful env _ hc with hboot | hrun
    · exact .inl ⟨e, hboot⟩
    · exact .inr ⟨e, hrun⟩
  transient e hran hrun htransient :=
    ⟨completions_of_transient hran hrun htransient,
      exitCode_of_transient hran hrun htransient⟩
  recorders before k after h :=
    (h ▸ reportedFirst_activate env : ReportedFirst env.Truthful _).recorder

/-- A transient failure that is a `SystemExit` with code 0. -/
def transientExit : PyExc :=
  .raised (.extend "TransientExit" [transientNexusError, systemExit]) "0"

/-- A `SystemExit` of the task ends the process with its own code, and so does one of the exit of the
algorithm's context. -/
theorem transient_failure_exits_with_zero :
    let stopping := { smoothRun with run := .error transientExit }
    let closing := { smoothRun with
      run := .error (.raised transientNexusError "")
      contextClose := .error (sysExit 0) }
    (stopping.TaskRan ∧ transientExit.isInstance transientNexusError = true ∧
      exitCode (activate stopping).outcome = 0) ∧
    closing.TaskRan ∧ exitCode (activate closing).outcome = 0 := by
  refine ⟨⟨?_, by decide, by decide +kernel⟩, ?_, by decide +kernel⟩
  · simp [Stages.TaskRan, smoothRun]
  · simp [Stages.TaskRan, smoothRun]

end NexusSdk.Core
