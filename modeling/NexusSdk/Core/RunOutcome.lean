import NexusSdk.Core.ExitStatus

/-! How a run of `activate` ends, by its stages, and what the stages that it does not reach matter
to it. -/

namespace NexusSdk.Core

open Lib

/-- The stages before the stores are closed, in the algorithm's context. -/
def Stages.inContext (env : Stages) : List (Except Exit Unit) :=
  env.untilCompletion ++ env.inputTasks ++ env.recorderTasks

/-- The stages before the stores are closed. -/
def Stages.untilStores (env : Stages) : List (Except Exit Unit) :=
  [env.load, env.enter, env.bootstrap].map (Except.mapError .raised) ++
    (env.untilContext ++ env.inContext)

variable {env : Stages}

theorem handleBootstrapError_raises (env : Stages) (e : PyExc) :
    ∃ exit, (handleBootstrapError env e).outcome = .error exit := by
  cases hreports : env.reports e with
  | true =>
    rw [handleBootstrapError_of_reports hreports, completeWithError]
    cases env.reportError <;> exact ⟨_, rfl⟩
  | false =>
    obtain ⟨e', hexit, -⟩ := handleBootstrapError_of_not_reports hreports
    exact ⟨_, by rw [hexit]; rfl⟩

/-- How a run ends, by its stages. -/
theorem outcome_activate (env : Stages) :
    (activate env).outcome =
      (firstError ([env.load, env.enter].map (Except.mapError .raised))).bind fun _ =>
        (runBootstrap env).outcome.bind fun _ =>
          (firstError env.untilContext).bind fun _ =>
            env.leaving (firstError (env.inContext ++ [env.closeStores.mapError .raised])) := by
  have hbody : env.inContext ++ [env.closeStores.mapError .raised] =
      env.untilCompletion ++ env.afterCompletion := by
    simp only [Stages.inContext, Stages.afterCompletion, List.append_assoc]
  rw [hbody]
  cases hload : env.load with
  | error e => simp [activate, hload, stage, Except.mapError, firstError, Except.bind]
  | ok _ =>
  cases henter : env.enter with
  | error e => simp [activate, hload, henter, stage, Except.mapError, firstError, Except.bind]
  | ok _ =>
  rw [activate_of_entered hload henter]
  show _ = (runBootstrap env).outcome.bind _
  cases hboot : env.bootstrap with
  | error e =>
    obtain ⟨exit, hexit⟩ := handleBootstrapError_raises env e
    rw [(runEntered_of_bootstrap_error hboot hexit).1, runBootstrap, hboot]
    simp only [hexit, Except.mapError, Except.bind]
  | ok _ =>
    rw [(runEntered_of_bootstrap_ok hboot).1, outcome_runAlgorithm, runBootstrap, hboot]
    rfl

theorem runBootstrap_of_ok (h : env.bootstrap = .ok ()) : runBootstrap env = .of (.ok ()) := by
  rw [runBootstrap, h]
  rfl

theorem leaving_error (env : Stages) (exit : Exit) :
    ∃ exit', env.leaving (.error exit) = .error exit' := by
  unfold Stages.leaving withExit
  cases env.contextClose <;> exact ⟨_, rfl⟩

theorem firstError_untilStores (env : Stages) :
    firstError env.untilStores =
      (firstError ([env.load, env.enter].map (Except.mapError .raised))).bind fun _ =>
        (env.bootstrap.mapError .raised).bind fun _ =>
          (firstError env.untilContext).bind fun _ => firstError env.inContext := by
  rw [← firstError_append, Stages.untilStores, firstError_append]
  cases env.load <;> cases env.enter <;> cases env.bootstrap <;> rfl

/-- What it takes to reach the closing of the stores. -/
theorem untilStores_eq_ok :
    firstError env.untilStores = .ok () ↔
      env.load = .ok () ∧ env.enter = .ok () ∧ env.bootstrap = .ok () ∧
        firstError env.untilContext = .ok () ∧ firstError env.inContext = .ok () := by
  rw [firstError_untilStores]
  cases env.load with
  | error e => simp [firstError, Except.mapError, Except.bind]
  | ok _ =>
  cases env.enter with
  | error e => simp [firstError, Except.mapError, Except.bind]
  | ok _ =>
  cases env.bootstrap with
  | error e => simp [firstError, Except.mapError, Except.bind]
  | ok _ =>
    cases firstError env.untilContext <;> simp [firstError, Except.mapError, Except.bind]

/-- A run whose stages up to the stores return ends as they and the algorithm's context do. -/
theorem activate_of_reached (h : firstError env.untilStores = .ok ()) :
    (activate env).outcome = env.leaving (env.closeStores.mapError .raised) := by
  obtain ⟨hload, henter, hboot, hcontext, hinside⟩ := untilStores_eq_ok.mp h
  rw [outcome_activate, runBootstrap_of_ok hboot, hload, henter, hcontext, firstError_append,
    hinside]
  show env.leaving (firstError [_]) = _
  cases env.closeStores <;> rfl

/-- The stores do not matter to a run that one of the stages before them ends. -/
theorem activate_of_unreached {exit : Exit} (h : firstError env.untilStores = .error exit)
    (x : Except PyExc Unit) :
    (activate { env with closeStores := x }).outcome = (activate env).outcome ∧
      (activate env).outcome ≠ .ok () := by
  rw [firstError_untilStores] at h
  rw [outcome_activate, outcome_activate env]
  show (firstError ([env.load, env.enter].map _)).bind (fun _ => (runBootstrap env).outcome.bind
    fun _ => (firstError env.untilContext).bind fun _ =>
      env.leaving (firstError (env.inContext ++ [x.mapError .raised]))) = _ ∧ _
  cases hstart : firstError ([env.load, env.enter].map (Except.mapError Exit.raised)) with
  | error exit' => exact ⟨rfl, fun hok => by cases hok⟩
  | ok _ =>
  cases hboot : env.bootstrap with
  | error e =>
    obtain ⟨exit', hexit⟩ := handleBootstrapError_raises env e
    rw [runBootstrap, hboot]
    simp only [hexit, Except.mapError]
    exact ⟨rfl, fun hok => by cases hok⟩
  | ok _ =>
  rw [runBootstrap_of_ok hboot]
  cases hcontext : firstError env.untilContext with
  | error exit' => exact ⟨rfl, fun hok => by cases hok⟩
  | ok _ =>
    have hinside : firstError env.inContext = .error exit := by
      rwa [hstart, hboot, hcontext] at h
    obtain ⟨exit', hexit⟩ := leaving_error env exit
    simp only [firstError_append, hinside]
    show env.leaving (.error exit) = env.leaving (.error exit) ∧ env.leaving (.error exit) ≠ _
    rw [hexit]
    exact ⟨rfl, fun hok => by cases hok⟩

end NexusSdk.Core
