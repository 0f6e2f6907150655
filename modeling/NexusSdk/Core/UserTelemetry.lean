import NexusSdk.Core.Report
import NexusSdk.Lib.Run

/-! The tasks of the on_complete recorders beside the main coroutine, in any interleaving.  The main
coroutine waits until all of them are done or one of them fails, and what is still pending when it
returns is cancelled. -/

namespace NexusSdk.Core

open Lib

/-! ### The event loop -/

/-- Where the main coroutine is; `done` are the tasks that were done when the wait ended. -/
inductive MainPhase
  | waiting
  | closing (done : List Nat)
  | returned (done : List Nat)
  | stopped

/-- The tasks that have ended, in order, and the main coroutine. -/
structure RecorderLoop where
  ended : List Nat
  main : MainPhase

inductive LoopMove
  /-- the task of recorder number `k` ends -/
  | ends (k : Nat)
  | main

def MainPhase.running : MainPhase → Bool
  | waiting | closing _ => true
  | returned _ | stopped => false

/-- A task with this outcome makes `FIRST_EXCEPTION` end the wait. -/
def fails : Except PyExc Unit → Bool
  | .ok () => false
  | .error e => !e.isCancelled

namespace Stages

variable (env : Stages)

def outcome? (k : Nat) : Option (Except PyExc Unit) := env.recorders[k]?.map Recorder.record

/-- The stages, with the given tasks done when `asyncio.wait` returns. -/
def doneBy (done : List Nat) : Stages :=
  { env with
    recorders := env.recorders.zipIdx.map fun (recorder, k) =>
      { recorder with finished := decide (k ∈ done) } }

def allEnded (ended : List Nat) : Prop := ∀ k < env.recorders.length, k ∈ ended

def anyFailed (ended : List Nat) : Prop := ∃ k ∈ ended, (env.outcome? k).any fails = true

instance (ended : List Nat) : Decidable (env.allEnded ended) :=
  inferInstanceAs (Decidable (∀ k < env.recorders.length, k ∈ ended))

instance (ended : List Nat) : Decidable (env.anyFailed ended) :=
  inferInstanceAs (Decidable (∃ k ∈ ended, (env.outcome? k).any fails = true))

/-- A `SystemExit` of a task stops the loop. -/
def endTask (s : RecorderLoop) (k : Nat) : RecorderLoop :=
  match env.outcome? k with
  | none => s
  | some outcome =>
    if s.main.running && k ∉ s.ended then
      { ended := s.ended ++ [k], main := if (tearsDown outcome).isOk then s.main else .stopped }
    else s

/-- The main coroutine goes on; it returns if nothing in `activate` raises. -/
def resumeMain (s : RecorderLoop) : RecorderLoop :=
  match s.main with
  | .waiting =>
    if env.allEnded s.ended ∨ env.anyFailed s.ended then { s with main := .closing s.ended } else s
  | .closing done =>
    { s with
      main := if (activate (env.doneBy done)).outcome.isOk then .returned done else .stopped }
  | .returned _ | .stopped => s

/-- A move that is not possible changes nothing. -/
def loopStep (s : RecorderLoop) : LoopMove → RecorderLoop
  | .ends k => env.endTask s k
  | .main => env.resumeMain s

def loop (moves : List LoopMove) : RecorderLoop :=
  Lib.run env.loopStep ⟨[], .waiting⟩ moves

end Stages

/-! ### The counters -/

def Activity.metric? : Activity → Option String
  | .increment metric => some metric
  | _ => none

/-- The counters that are incremented, in order. -/
def increments {α : Type} (x : Run α) : List String := x.events.filterMap Activity.metric?

/-- The counters account for the recorders of a run that returned after tasks `done`: they count the
tasks that were done; either these are all, or one of them failed and it is reported once that the
others did not complete. -/
structure RecordersAccounted (env : Stages) (s : RecorderLoop) (done : List Nat) : Prop where
  done_ended : done <+: s.ended
  reported : (increments (activate (env.doneBy done))).count "telemetry_reports_succeeded" +
    (increments (activate (env.doneBy done))).count "telemetry_reports_failed" = done.length
  complete : "telemetry_reports_incomplete" ∉ increments (activate (env.doneBy done)) →
    env.allEnded s.ended ∧ done.length = env.recorders.length
  incomplete : "telemetry_reports_incomplete" ∈ increments (activate (env.doneBy done)) →
    (increments (activate (env.doneBy done))).count "telemetry_reports_incomplete" = 1 ∧
      done.length < env.recorders.length ∧ env.anyFailed done

theorem increments_of_bind_ok {α β : Type} {x : Run α} {f : α → Run β} {b : β}
    (h : (x >>= f).outcome = .ok b) :
    ∃ a, x.outcome = .ok a ∧ (f a).outcome = .ok b ∧
      increments (x >>= f) = increments x ++ increments (f a) := by
  obtain ⟨a, hx, hf, hevents⟩ := Traced.of_bind_ok h
  exact ⟨a, hx, hf, by rw [increments, hevents, List.filterMap_append]; rfl⟩

/-- A part that increments nothing, before one that may. -/
theorem increments_after {α β : Type} {x : Run α} {f : α → Run β} {b : β}
    (hx : increments x = []) (h : (x >>= f).outcome = .ok b) :
    ∃ a, x.outcome = .ok a ∧ (f a).outcome = .ok b ∧ increments (x >>= f) = increments (f a) := by
  obtain ⟨a, hout, hf, hincrements⟩ := increments_of_bind_ok h
  exact ⟨a, hout, hf, by rw [hincrements, hx, List.nil_append]⟩

theorem increments_startRecorders (k : Nat) (recorders : List Recorder) :
    increments (startRecorders k recorders) = [] := by
  induction recorders generalizing k with
  | nil => rfl
  | cons recorder rest ih =>
    rw [startRecorders]
    cases recorder.start with
    | error e => rfl
    | ok _ => exact ih (k + 1)

theorem increments_reportRecorders {tasks : List (Except PyExc Unit)}
    (h : (reportRecorders tasks).outcome = .ok ()) :
    increments (reportRecorders tasks) = tasks.map reportMetric := by
  induction tasks with
  | nil => rfl
  | cons task rest ih =>
    rw [reportRecorders] at h ⊢
    obtain ⟨-, -, h, hincrements⟩ := increments_after rfl h
    rw [hincrements]
    obtain ⟨-, -, h, hincrements⟩ := increments_of_bind_ok h
    rw [hincrements, ih h]
    rfl

/-- The counters of the recorders, if nothing there raises. -/
theorem increments_runRecorders {recorders : List Recorder}
    (h : (runRecorders recorders).outcome = .ok ()) :
    increments (runRecorders recorders) =
      (if recorders.any (fun recorder => !recorder.finished) then ["telemetry_reports_incomplete"]
        else []) ++
        ((recorders.filter Recorder.finished).map Recorder.record).map reportMetric := by
  rw [runRecorders] at h ⊢
  obtain ⟨-, -, h, hincrements⟩ := increments_after (increments_startRecorders 0 recorders) h
  rw [hincrements]
  obtain ⟨-, -, h, hincrements⟩ := increments_after rfl h
  rw [hincrements]
  obtain ⟨-, -, h, hincrements⟩ := increments_of_bind_ok h
  rw [hincrements, increments_reportRecorders h]
  cases recorders.any fun recorder => !recorder.finished <;> rfl

theorem increments_record (tasks : List (Except PyExc Unit)) : increments (record tasks) = [] := by
  unfold record awaitTasks
  cases firstError (tasks.map tearsDown) <;> rfl

theorem increments_recordTelemetry {env : Stages} (htelemetry : env.userTelemetry = true)
    (h : (recordTelemetry env none).outcome = .ok ()) :
    (runRecorders env.recorders).outcome = .ok () ∧
      increments (recordTelemetry env none) = increments (runRecorders env.recorders) := by
  have hrecord : increments (Traced.when env.inputTelemetry (stage env.recordInputs >>= record)) =
      [] := by
    cases env.inputTelemetry with
    | false => rfl
    | true =>
      cases env.recordInputs with
      | error e => rfl
      | ok tasks => exact increments_record tasks
  rw [recordTelemetry] at h ⊢
  obtain ⟨-, -, h, hincrements⟩ := increments_after hrecord h
  rw [hincrements, htelemetry]
  rw [htelemetry] at h
  obtain ⟨_, hrecorders, -, hincrements⟩ := increments_of_bind_ok h
  exact ⟨hrecorders, hincrements.trans (List.append_nil _)⟩

theorem increments_submitResult {env : Stages} (h : (submitResult env none).outcome = .ok ()) :
    increments (submitResult env none) = ["successful_runs"] := by
  have heq : submitResult env none = stage env.saveResult >>= fun uri =>
      completeRun (.result uri) env.completeRun >>= fun _ =>
        .emit (.increment "successful_runs") := rfl
  rw [heq] at h ⊢
  obtain ⟨uri, -, h, hincrements⟩ := increments_after rfl h
  rw [hincrements]
  obtain ⟨-, -, -, hincrements⟩ := increments_after rfl h
  rw [hincrements]
  rfl

theorem increments_runAlgorithm {env : Stages} (hrun : env.run = .ok ())
    (htelemetry : env.userTelemetry = true) (h : (runAlgorithm env).outcome = .ok ()) :
    (runRecorders env.recorders).outcome = .ok () ∧
      increments (runAlgorithm env) =
        "successful_runs" :: increments (runRecorders env.recorders) := by
  have heq : runAlgorithm env = submitResult env none >>= fun _ => recordTelemetry env none := by
    rw [runAlgorithm, hrun]
    rfl
  rw [heq] at h ⊢
  obtain ⟨_, hsubmit, h, hincrements⟩ := increments_of_bind_ok h
  obtain ⟨hrecorders, htelemetry⟩ := increments_recordTelemetry htelemetry h
  refine ⟨hrecorders, ?_⟩
  rw [hincrements, increments_submitResult hsubmit, htelemetry]
  rfl

theorem outcome_of_withExit {body : Run Unit} {close : Except PyExc Unit}
    (h : (withExit body close).outcome = .ok ()) : body.outcome = .ok () := by
  obtain ⟨events, exit | _⟩ := body
  · cases close <;> cases h
  · rfl

theorem bootstrap_of_runBootstrap {env : Stages} (h : (runBootstrap env).outcome = .ok ()) :
    env.bootstrap = .ok () := by
  unfold runBootstrap at h
  cases hbootstrap : env.bootstrap with
  | ok _ => rfl
  | error e =>
    rw [hbootstrap] at h
    cases hhandler : (handleBootstrapError env e).outcome with
    | ok _ => exact absurd hhandler (handleBootstrapError_ne_ok e)
    | error exit =>
      simp only [hhandler] at h
      cases h

/-- The counters of a successful run that returns. -/
theorem increments_activate {env : Stages} (hrun : env.run = .ok ())
    (htelemetry : env.userTelemetry = true) (h : (activate env).outcome = .ok ()) :
    (runRecorders env.recorders).outcome = .ok () ∧
      increments (activate env) = "successful_runs" :: increments (runRecorders env.recorders) := by
  rw [activate] at h ⊢
  obtain ⟨-, -, h, hincrements⟩ := increments_after rfl h
  rw [hincrements]
  obtain ⟨-, -, h, hincrements⟩ := increments_after rfl h
  rw [hincrements, runEntered]
  rw [runEntered] at h
  have hbootstrap : increments (runBootstrap env) = [] := by
    obtain ⟨_, hok, -⟩ := Traced.of_bind_ok h
    rw [runBootstrap, bootstrap_of_runBootstrap hok]
    rfl
  obtain ⟨-, -, h, hincrements⟩ := increments_after hbootstrap h
  rw [hincrements]
  obtain ⟨-, -, h, hincrements⟩ := increments_after rfl h
  rw [hincrements]
  obtain ⟨-, -, h, hincrements⟩ := increments_after rfl h
  rw [hincrements]
  obtain ⟨-, -, h, hincrements⟩ := increments_after rfl h
  rw [hincrements, increments, events_withExit]
  exact increments_runAlgorithm hrun htelemetry (outcome_of_withExit h)

/-! ### The tasks that are done -/

section Done

variable {env : Stages} {done : List Nat}

variable (env done) in
theorem length_doneBy : (env.doneBy done).recorders.length = env.recorders.length := by
  simp [Stages.doneBy]

/-- The recorders whose tasks are done, among those with their numbers. -/
theorem length_filter_doneBy (hnodup : done.Nodup) (hbound : ∀ k ∈ done, k < env.recorders.length) :
    ((env.doneBy done).recorders.filter Recorder.finished).length = done.length := by
  have hperm : ((List.range env.recorders.length).filter (· ∈ done)).Perm done := by
    refine (List.perm_ext_iff_of_nodup (List.nodup_range.filter _) hnodup).mpr fun k => ?_
    rw [List.mem_filter, List.mem_range, decide_eq_true_iff]
    exact and_iff_right_of_imp (hbound k)
  calc
    ((env.doneBy done).recorders.filter Recorder.finished).length =
        env.recorders.zipIdx.countP ((fun k => decide (k ∈ done)) ∘ Prod.snd) := by
      rw [← List.countP_eq_length_filter, Stages.doneBy, List.countP_map]
      rfl
    _ = (List.range env.recorders.length).countP fun k => k ∈ done := by
      rw [← List.countP_map, List.zipIdx_map_snd, ← List.range_eq_range']
    _ = done.length := by rw [List.countP_eq_length_filter, hperm.length_eq]

variable (env done) in
theorem any_not_finished : (env.doneBy done).recorders.any (fun recorder => !recorder.finished) =
    !decide (env.allEnded done) := by
  rw [Bool.eq_iff_iff, List.any_eq_true, Bool.not_eq_true', decide_eq_false_iff_not]
  simp only [Stages.doneBy, Stages.allEnded, List.mem_map, Prod.exists, not_forall]
  constructor
  · rintro ⟨_, ⟨recorder, k, hmem, rfl⟩, hnot⟩
    obtain ⟨-, hlt, -⟩ := List.mem_zipIdx hmem
    exact ⟨k, by omega, by simpa using hnot⟩
  · rintro ⟨k, hlt, hnot⟩
    have hmem : (env.recorders[k], k) ∈ env.recorders.zipIdx := by
      rw [List.mem_zipIdx_iff_getElem?]
      exact List.getElem?_eq_getElem hlt
    exact ⟨_, ⟨_, k, hmem, rfl⟩, by simpa using hnot⟩

/-- Fewer tasks are done than there are recorders exactly if one of these is not. -/
theorem length_lt_iff (hnodup : done.Nodup) (hbound : ∀ k ∈ done, k < env.recorders.length) :
    done.length < env.recorders.length ↔ ¬ env.allEnded done := by
  have hany := any_not_finished env done
  rw [Bool.eq_iff_iff, List.any_eq_true, Bool.not_eq_true', decide_eq_false_iff_not] at hany
  rw [← hany, ← length_filter_doneBy hnodup hbound, ← length_doneBy env done,
    List.length_filter_lt_length_iff_exists]
  simp

theorem count_reportMetric (tasks : List (Except PyExc Unit)) :
    (tasks.map reportMetric).count "telemetry_reports_succeeded" +
        (tasks.map reportMetric).count "telemetry_reports_failed" = tasks.length ∧
      "telemetry_reports_incomplete" ∉ tasks.map reportMetric := by
  induction tasks with
  | nil => exact ⟨rfl, by simp⟩
  | cons task rest ih =>
    obtain hmetric | hmetric : reportMetric task = "telemetry_reports_succeeded" ∨
        reportMetric task = "telemetry_reports_failed" := by
      unfold reportMetric
      split
      · split
        · exact .inr rfl
        · exact .inl rfl
      · exact .inl rfl
    all_goals
      simp only [List.map_cons, hmetric, List.length_cons, List.mem_cons, not_or]
      refine ⟨?_, by decide, ih.2⟩
      simp
      omega

end Done

/-! ### Every interleaving -/

section Loop

variable {env : Stages}

/-- The tasks were done when the wait ended, and it could end. -/
def Awaited (env : Stages) (s : RecorderLoop) (done : List Nat) : Prop :=
  done <+: s.ended ∧ (env.allEnded done ∨ env.anyFailed done)

structure LoopSound (env : Stages) (s : RecorderLoop) : Prop where
  nodup : s.ended.Nodup
  bound : ∀ k ∈ s.ended, k < env.recorders.length
  closing : ∀ done, s.main = .closing done → Awaited env s done
  returned : ∀ done, s.main = .returned done →
    Awaited env s done ∧ (activate (env.doneBy done)).outcome = .ok ()

theorem loopSound_initial : LoopSound env ⟨[], .waiting⟩ :=
  ⟨List.nodup_nil, by simp, by simp, by simp⟩

theorem Awaited.snoc {s : RecorderLoop} {done : List Nat} (h : Awaited env s done) (k : Nat)
    (main : MainPhase) : Awaited env ⟨s.ended ++ [k], main⟩ done :=
  ⟨h.1.trans (List.prefix_append _ _), h.2⟩

theorem loopSound_endTask {s : RecorderLoop} (h : LoopSound env s) (k : Nat) :
    LoopSound env (env.endTask s k) := by
  unfold Stages.endTask
  split
  · exact h
  · next outcome houtcome =>
    split
    · next hcond =>
      rw [Bool.and_eq_true, decide_eq_true_iff] at hcond
      obtain ⟨recorder, hrecorder, -⟩ := Option.map_eq_some_iff.mp houtcome
      have hlt : k < env.recorders.length := (List.getElem?_eq_some_iff.mp hrecorder).1
      refine ⟨?_, fun a ha => ?_, fun done hdone => ?_, fun done hdone => ?_⟩
      · rw [← List.concat_eq_append]
        exact h.nodup.concat hcond.2
      · rcases List.mem_append.mp ha with ha | ha
        · exact h.bound a ha
        · exact List.mem_singleton.mp ha ▸ hlt
      · cases hok : (tearsDown outcome).isOk with
        | true => exact (h.closing done (by simpa [hok] using hdone)).snoc k _
        | false => simp [hok] at hdone
      · cases hok : (tearsDown outcome).isOk with
        | true =>
          obtain ⟨hawaited, hreturned⟩ := h.returned done (by simpa [hok] using hdone)
          exact ⟨hawaited.snoc k _, hreturned⟩
        | false => simp [hok] at hdone
    · exact h

theorem loopSound_resumeMain {s : RecorderLoop} (h : LoopSound env s) :
    LoopSound env (env.resumeMain s) := by
  unfold Stages.resumeMain
  split
  · split
    · next hwakes =>
      refine ⟨h.nodup, h.bound, fun done hdone => ?_, by simp⟩
      obtain rfl := MainPhase.closing.inj hdone
      exact ⟨List.prefix_rfl, hwakes⟩
    · exact h
  · next done hmain =>
    cases hok : (activate (env.doneBy done)).outcome with
    | error e => exact ⟨h.nodup, h.bound, by simp [Except.isOk, Except.toBool],
        by simp [Except.isOk, Except.toBool]⟩
    | ok _ =>
      refine ⟨h.nodup, h.bound, by simp [Except.isOk, Except.toBool], fun done' hdone => ?_⟩
      obtain rfl : done = done' := by simpa [Except.isOk, Except.toBool] using hdone
      exact ⟨h.closing done hmain, hok⟩
  · exact h
  · exact h

theorem loopSound_step (s : RecorderLoop) (move : LoopMove) (h : LoopSound env s) :
    LoopSound env (env.loopStep s move) := by
  cases move with
  | ends k => exact loopSound_endTask h k
  | main => exact loopSound_resumeMain h

theorem loopSound_loop (moves : List LoopMove) : LoopSound env (env.loop moves) :=
  run_invariant loopSound_step loopSound_initial moves

end Loop

/-- In every interleaving, a successful run that returns has counted the recorders that were done
when the wait ended; unless these are all, one of them failed, and it has reported that the others
did not complete. -/
theorem recorders_accounted (env : Stages) (moves : List LoopMove) (done : List Nat)
    (hrun : env.run = .ok ()) (htelemetry : env.userTelemetry = true)
    (hreturned : (env.loop moves).main = .returned done) :
    RecordersAccounted env (env.loop moves) done := by
  obtain ⟨hnodup, hbound, -, hsound⟩ := loopSound_loop moves
  obtain ⟨⟨hbefore, hwoken⟩, hok⟩ := hsound done hreturned
  have hmem : ∀ k ∈ done, k ∈ (env.loop moves).ended := fun k hk => hbefore.subset hk
  have hdoneNodup : done.Nodup := hbefore.sublist.nodup hnodup
  have hdoneBound : ∀ k ∈ done, k < env.recorders.length := fun k hk => hbound k (hmem k hk)
  obtain ⟨hrecorders, hincrements⟩ : (runRecorders (env.doneBy done).recorders).outcome = .ok () ∧
      increments (activate (env.doneBy done)) = _ := increments_activate hrun htelemetry hok
  have hlength := length_filter_doneBy hdoneNodup hdoneBound
  rw [increments_runRecorders hrecorders, any_not_finished] at hincrements
  obtain ⟨hcounts, hnever⟩ := count_reportMetric
    (((env.doneBy done).recorders.filter Recorder.finished).map Recorder.record)
  rw [List.length_map, hlength] at hcounts
  have hlt := length_lt_iff hdoneNodup hdoneBound
  generalize (((env.doneBy done).recorders.filter Recorder.finished).map Recorder.record).map
    reportMetric = metrics at hincrements hcounts hnever
  by_cases hall : env.allEnded done
  · simp only [hall, decide_true, Bool.not_true, Bool.false_eq_true, if_false,
      List.nil_append] at hincrements
    have hlength : done.length ≤ env.recorders.length := by
      rw [← hlength, ← length_doneBy env done]
      exact List.length_filter_le _ _
    refine ⟨hbefore, ?_, fun _ => ⟨fun k hk => hmem k (hall k hk), ?_⟩, fun hincomplete => ?_⟩
    · simpa [hincrements] using hcounts
    · have hge : ¬ done.length < env.recorders.length := fun h => hlt.mp h hall
      omega
    · simp [hincrements, hnever] at hincomplete
  · simp only [hall, decide_false, Bool.not_false, if_true, List.singleton_append] at hincrements
    refine ⟨hbefore, ?_, fun hcomplete => ?_, fun _ => ⟨?_, hlt.mpr hall, hwoken.resolve_left hall⟩⟩
    · simpa [hincrements] using hcounts
    · simp [hincrements] at hcomplete
    · simp [hincrements, List.count_eq_zero.mpr hnever]

/-- A run with two recorders, the first of which ends with the given outcome. -/
def twoRecorders (first : Except PyExc Unit) : Stages :=
  { smoothRun with recorders := [⟨.ok (), first, true⟩, ⟨.ok (), .ok (), true⟩] }

theorem recorders_accounted_outOfOrder :
    RecordersAccounted (twoRecorders (.ok ()))
      ((twoRecorders (.ok ())).loop [.ends 1, .ends 0, .main, .main]) [1, 0] :=
  recorders_accounted (twoRecorders (.ok ())) [.ends 1, .ends 0, .main, .main] [1, 0] rfl rfl rfl

/-- The first recorder fails, and the run returns before the second one has ended. -/
theorem second_recorder_not_awaited :
    let env := twoRecorders (.error (.raised runtimeError "no connection"))
    let s := env.loop [.ends 0, .main, .main]
    s.main = .returned [0] ∧ ¬ env.allEnded s.ended ∧
      (increments (activate (env.doneBy [0]))).count "telemetry_reports_succeeded" +
        (increments (activate (env.doneBy [0]))).count "telemetry_reports_failed" ≠
          env.recorders.length := by
  refine ⟨rfl, ?_, ?_⟩
  · decide
  · decide

end NexusSdk.Core
