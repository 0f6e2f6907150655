import NexusSdk.Core.ExitStatus

/-! Which startup errors are reported.  The `except` clauses of `activate` stand around `bootstrap`
alone; the load of the configuration and `__aenter__` come before them, and the construction of the
algorithm, of the telemetry recorder and `_context_open` after them. -/

namespace NexusSdk.Core

open Lib

/-- The stages of `activate` before the algorithm run task is created. -/
def Stages.startup (env : Stages) : List (Except PyExc Unit) :=
  [env.load, env.enter, env.bootstrap, env.constructAlgorithm, env.constructRecorder,
    env.contextOpen]

/-- The run is completed once, with the error `e`, and the process ends with status 0. -/
def Reported (env : Stages) (e : PyExc) : Prop :=
  (activate env).events = [.completeRun (.error e) true] ∧
    endsWithZero (activate env).outcome = true

variable {env : Stages} {e : PyExc}

theorem reports_of_fatal (env : Stages) (h : e.isInstance fatalStartupConfigurationError = true) :
    env.reports e = true := by
  rw [Stages.reports, h, Bool.or_true, Bool.true_or]

theorem reported_of_bootstrap_error (hload : env.load = .ok ()) (henter : env.enter = .ok ())
    (hboot : env.bootstrap = .error e)
    (hfatal : e.isInstance fatalStartupConfigurationError = true) :
    Reported env e ↔ env.reportError = .ok () := by
  have hreports := reports_of_fatal env hfatal
  unfold Reported
  rw [activate_of_entered hload henter]
  cases hreport : env.reportError with
  | ok _ =>
    obtain ⟨hout, hev⟩ := runEntered_of_reported hboot hreports hreport
    rw [hout, hev]
    have hzero : exitsZero (sysExit 0) = true := by decide
    exact ⟨fun _ => rfl, fun _ => ⟨rfl, hzero⟩⟩
  | error e' =>
    obtain ⟨hout, hev⟩ := runEntered_of_report_failed hboot hreports hreport
    rw [hout, hev]
    simp

theorem not_reported_of_no_events (h : (activate env).events = []) : ¬ Reported env e := by
  rintro ⟨hev, -⟩
  rw [h] at hev
  cases hev

/-- A startup error after bootstrap ends the run before it sends anything. -/
theorem no_events_after_bootstrap (hload : env.load = .ok ()) (henter : env.enter = .ok ())
    (hboot : env.bootstrap = .ok ())
    (hlater : firstError [.ok (), .ok (), .ok (), env.constructAlgorithm, env.constructRecorder,
      env.contextOpen] = .error e) : (activate env).events = [] := by
  cases halg : env.constructAlgorithm with
  | error _ =>
    simp [activate, runEntered, runBootstrap, hload, henter, hboot, halg, stage, Except.mapError]
  | ok _ =>
  cases hrec : env.constructRecorder with
  | error _ =>
    simp [activate, runEntered, runBootstrap, hload, henter, hboot, halg, hrec, stage,
      Except.mapError]
  | ok _ =>
  cases hopen : env.contextOpen with
  | error _ =>
    simp [activate, runEntered, runBootstrap, hload, henter, hboot, halg, hrec, hopen, stage,
      Except.mapError]
  | ok _ =>
    rw [halg, hrec, hopen] at hlater
    cases hlater

/-- A fatal startup error is reported exactly if bootstrap raises it and the receiver accepts the
completion. -/
theorem startup_error_reported_iff (env : Stages) (e : PyExc)
    (hstartup : firstError env.startup = .error e)
    (hfatal : e.isInstance fatalStartupConfigurationError = true) :
    Reported env e ↔
      env.load = .ok () ∧ env.enter = .ok () ∧ env.bootstrap = .error e ∧
        env.reportError = .ok () := by
  unfold Stages.startup at hstartup
  cases hload : env.load with
  | error e' =>
    constructor
    · intro h
      refine absurd h (not_reported_of_no_events ?_)
      simp [activate, hload, stage, Except.mapError]
    · rintro ⟨h, -⟩
      cases h
  | ok _ =>
  cases henter : env.enter with
  | error e' =>
    constructor
    · intro h
      refine absurd h (not_reported_of_no_events ?_)
      simp [activate, hload, henter, stage, Except.mapError]
    · rintro ⟨-, h, -⟩
      cases h
  | ok _ =>
  rw [hload, henter] at hstartup
  cases hboot : env.bootstrap with
  | error e' =>
    rw [hboot] at hstartup
    obtain rfl : e' = e := Except.error.inj hstartup
    rw [reported_of_bootstrap_error hload henter hboot hfatal]
    simp
  | ok _ =>
    rw [hboot] at hstartup
    constructor
    · intro h
      have hnone := no_events_after_bootstrap hload henter hboot hstartup
      exact absurd h (not_reported_of_no_events hnone)
    · rintro ⟨-, -, h, -⟩
      cases h

/-- A configuration error that bootstrap raises. -/
theorem startup_error_reported_in_bootstrap :
    let e := PyExc.raised fatalStartupConfigurationError "Failed to locate required factory: a.B"
    let env := { smoothRun with bootstrap := .error e }
    Reported env e ↔
      env.load = .ok () ∧ env.enter = .ok () ∧ env.bootstrap = .error e ∧ env.reportError = .ok () :=
  startup_error_reported_iff _ _ rfl (by decide)

/-- A reader's constructor asks for a socket that is not configured. -/
theorem startup_error_not_reported_in_constructor :
    let e := PyExc.raised fatalStartupConfigurationError "socket with alias `orders`"
    let env := { smoothRun with constructAlgorithm := .error e }
    firstError env.startup = .error e ∧ ¬ Reported env e := by
  refine ⟨rfl, ?_⟩
  rintro ⟨hev, -⟩
  exact absurd hev (by decide)

end NexusSdk.Core
