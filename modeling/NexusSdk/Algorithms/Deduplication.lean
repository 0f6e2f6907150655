import NexusSdk.Algorithms.Submission

/-! Concurrent submission with deduplication.  The lookup of an invocation and its creation are
separate awaits, and nothing keeps another invocation from looking up between them. -/

namespace NexusSdk.Algorithms

open Lib Input

section Guard

variable {ι F C V α R : Type}

/-- At most one run was created for an algorithm and a tag. -/
def CreatedOnce (s : Submissions ι F C V α R) : Prop :=
  ∀ name tag, ((s.scheduler.under name tag).filter fun run => run.origin.isSome).length ≤ 1

/-- A lookup that finds no run is not made while another invocation creates one for the same
algorithm and tag. -/
def LooksUpAlone (algs : ι → RemoteAlgorithm F C V α R) (s : Submissions ι F C V α R)
    (move : ι × Answer V) : Prop :=
  ∀ l parameters, s.phases move.1 = .lookingUp l parameters →
    s.scheduler.under (algs move.1).remoteName l.tag = [] →
    ∀ j ≠ move.1, ∀ l' request, s.phases j = .creating l' request →
      ¬ (request.algorithmName = (algs move.1).remoteName ∧ request.tag = l.tag)

/-- Nothing is created twice: an invocation that creates is alone with its algorithm and tag, and
there is no run under them yet. -/
structure Guarded (s : Submissions ι F C V α R) : Prop where
  alone : ∀ i j l request l' request', s.phases i = .creating l request →
    s.phases j = .creating l' request' → request.algorithmName = request'.algorithmName →
    request.tag = request'.tag → i = j
  fresh : ∀ i l request, s.phases i = .creating l request →
    s.scheduler.under request.algorithmName request.tag = []
  once : CreatedOnce s

section Control

variable {alg : RemoteAlgorithm F C V α R} {i : ι} {scheduler scheduler' : Scheduler ι F C}

theorem submit_ne_creating (hforce : alg.forceRun = false) (args : RunArgs V) (commonTag : String)
    (ids : List String) (payloads : List α) (l : Submitting V α) (request : RunRequest F C) :
    (alg.submit args commonTag ids payloads : Phase ι F C V α R) ≠ .creating l request := by
  refine submit_rule (P := fun phase => phase ≠ .creating l request) args commonTag ids payloads
    (fun _ h => by cases h) (fun _ _ h => by cases h) (fun _ _ _ _ _ _ _ h => by cases h) ?_
  intro _ _ _ _ _ htrue
  rw [hforce] at htrue
  cases htrue

theorem describe_creating (hforce : alg.forceRun = false) {l l' : Submitting V α}
    {parameters : Json F} {described : List (Option (RemoteRun ι F C))} {remaining : List String}
    {request : RunRequest F C}
    (h : alg.describe l parameters described remaining = .creating l' request) :
    described = [] ∧ remaining = [] ∧ request.algorithmName = alg.remoteName ∧
      request.tag = l.tag := by
  revert h
  refine describe_rule (P := fun phase => phase = .creating l' request → _)
    (fun _ h => by cases h) (fun _ _ _ h => by cases h) ?_ ?_
  · intro run _ h
    exact absurd h (submit_ne_creating hforce _ _ _ _ _ _)
  · intro hnil hrest
    refine create_rule (P := fun phase => phase = .creating l' request → _) parameters
      (fun _ h => by cases h) ?_
    intro request' hname htag h
    cases h
    exact ⟨hnil, hrest, hname, htag⟩

/-- Only a lookup without results leads to a creation. -/
theorem lookup_of_creating (hforce : alg.forceRun = false) {phase : Phase ι F C V α R}
    {l : Submitting V α} {request : RunRequest F C}
    (h : Transition alg i scheduler phase scheduler' (.creating l request)) :
    scheduler' = scheduler ∧ ∃ l' parameters, phase = .lookingUp l' parameters ∧
      scheduler.under alg.remoteName l'.tag = [] ∧ request.algorithmName = alg.remoteName ∧
      request.tag = l'.tag := by
  generalize hphase' : Phase.creating l request = phase' at h
  cases h with
  | resolved kwargs results =>
    unfold afterResolve at hphase'
    split at hphase' <;> cases hphase'
  | ran args =>
    unfold RemoteAlgorithm.afterRun at hphase'
    split at hphase'
    · cases hphase'
    · split at hphase'
      · cases hphase'
      · exact absurd hphase'.symm (submit_ne_creating hforce _ _ _ _ _ _)
  | listed l' parameters ids hids =>
    obtain ⟨-, hnil, hname, htag⟩ := describe_creating hforce hphase'.symm
    rw [hnil] at hids
    exact ⟨rfl, l', parameters, rfl, List.map_eq_nil_iff.mp hids.nil_eq.symm, hname, htag⟩
  | described l' parameters described requestId remaining run hrun =>
    obtain ⟨hnil, -⟩ := describe_creating hforce hphase'.symm
    simp at hnil
  | created l' request' id receivedAt scheduler' hcreate phase' hnext =>
    rcases hnext with rfl | ⟨e, rfl⟩
    · exact absurd hphase'.symm (submit_ne_creating hforce _ _ _ _ _ _)
    · cases hphase'
  | raised phase e => cases hphase'

/-- A step leaves the scheduler as it is, or adds the run of a creation. -/
theorem scheduler_of_transition {phase phase' : Phase ι F C V α R}
    (h : Transition alg i scheduler phase scheduler' phase') :
    scheduler' = scheduler ∨ ∃ l request run, phase = .creating l request ∧
      run.toRunRequest = request ∧ scheduler'.runs = scheduler.runs ++ [run] := by
  cases h with
  | created l request id receivedAt scheduler' hcreate phase' hnext =>
    exact .inr ⟨l, request, _, rfl, rfl, runs_create hcreate⟩
  | _ => exact .inl rfl

end Control

theorem under_append {s s' : Scheduler ι F C} {run : RemoteRun ι F C}
    (h : s'.runs = s.runs ++ [run]) (name tag : String) :
    s'.under name tag = s.under name tag ++ if run.Under name tag then [run] else [] := by
  rw [Scheduler.under, h, List.filter_append, Scheduler.under]
  split <;> simp [*]

/-- The invocations when they are started, with the runs of others. -/
def started (existing : Scheduler ι F C) (kwargs : ι → RunArgs V) : Submissions ι F C V α R :=
  ⟨existing, fun i => .resolving (kwargs i)⟩

theorem guarded_started {existing : Scheduler ι F C}
    (hexisting : ∀ run ∈ existing.runs, run.origin = none) (kwargs : ι → RunArgs V) :
    Guarded (started existing kwargs : Submissions ι F C V α R) := by
  refine ⟨?_, ?_, ?_⟩
  · intro i j l request l' request' hi
    cases hi
  · intro i l request hi
    cases hi
  intro name tag
  have hnil : ((existing.under name tag).filter fun run => run.origin.isSome) = [] := by
    refine List.filter_eq_nil_iff.mpr fun run hrun => ?_
    rw [hexisting run (mem_under.mp hrun).1]
    exact Bool.false_ne_true
  show ((existing.under name tag).filter fun run => run.origin.isSome).length ≤ 1
  rw [hnil]
  exact Nat.zero_le 1

variable [DecidableEq ι] {algs : ι → RemoteAlgorithm F C V α R}

/-- A step of the invocation `i` that leaves the scheduler as it is. -/
theorem guarded_update {s : Submissions ι F C V α R} (h : Guarded s) (i : ι)
    (phase : Phase ι F C V α R)
    (hlookup : ∀ l request, phase = .creating l request →
      s.scheduler.under request.algorithmName request.tag = [] ∧
        ∀ j ≠ i, ∀ l' request', s.phases j = .creating l' request' →
          ¬ (request'.algorithmName = request.algorithmName ∧ request'.tag = request.tag)) :
    Guarded ⟨s.scheduler, Function.update s.phases i phase⟩ := by
  refine ⟨fun a b l request l' request' ha hb hname htag => ?_, fun a l request ha => ?_, h.once⟩
  · simp only [Function.update_apply] at ha hb
    by_cases hai : a = i
    · by_cases hbi : b = i
      · rw [hai, hbi]
      · rw [if_pos hai] at ha
        rw [if_neg hbi] at hb
        exact absurd ⟨hname.symm, htag.symm⟩ ((hlookup l request ha).2 b hbi l' request' hb)
    · rw [if_neg hai] at ha
      by_cases hbi : b = i
      · rw [if_pos hbi] at hb
        exact absurd ⟨hname, htag⟩ ((hlookup l' request' hb).2 a hai l request ha)
      · rw [if_neg hbi] at hb
        exact h.alone a b l request l' request' ha hb hname htag
  · simp only [Function.update_apply] at ha
    by_cases hai : a = i
    · rw [if_pos hai] at ha
      exact (hlookup l request ha).1
    · rw [if_neg hai] at ha
      exact h.fresh a l request ha

/-- A step of the invocation `i` that creates its run. -/
theorem guarded_create {s : Submissions ι F C V α R} (h : Guarded s) {i : ι}
    {l : Submitting V α} {run : RemoteRun ι F C} (hi : s.phases i = .creating l run.toRunRequest)
    {scheduler : Scheduler ι F C} (hruns : scheduler.runs = s.scheduler.runs ++ [run])
    {phase : Phase ι F C V α R} (hphase : ∀ l request, phase ≠ .creating l request) :
    Guarded ⟨scheduler, Function.update s.phases i phase⟩ := by
  have hother : ∀ a l request, Function.update s.phases i phase a = .creating l request →
      a ≠ i ∧ s.phases a = .creating l request := by
    intro a l request ha
    rw [Function.update_apply] at ha
    by_cases hai : a = i
    · rw [if_pos hai] at ha
      exact absurd ha (hphase l request)
    · rw [if_neg hai] at ha
      exact ⟨hai, ha⟩
  refine ⟨fun a b l request l' request' ha hb hname htag => ?_, fun a l' request ha => ?_,
    fun name tag => ?_⟩
  · exact h.alone a b l request l' request' (hother a l request ha).2 (hother b l' request' hb).2
      hname htag
  · obtain ⟨hai, ha⟩ := hother a l' request ha
    have hnot : ¬ run.Under request.algorithmName request.tag := fun hunder =>
      hai (h.alone a i l' request l run.toRunRequest ha hi hunder.1.symm hunder.2.symm)
    rw [under_append hruns, h.fresh a l' request ha, if_neg hnot]
    rfl
  · by_cases hunder : run.Under name tag
    · have hnone := h.fresh i l run.toRunRequest hi
      rw [hunder.1, hunder.2] at hnone
      rw [under_append hruns, hnone, if_pos hunder]
      exact List.length_filter_le _ _
    · rw [under_append hruns, if_neg hunder, List.append_nil]
      exact h.once name tag

theorem guarded_step (hdedup : ∀ i, (algs i).forceRun = false) (s : Submissions ι F C V α R)
    (move : ι × Answer V) (h : Guarded s) (halone : LooksUpAlone algs s move) :
    Guarded (s.step algs move) := by
  rcases step_cases algs s move with heq | ⟨scheduler, phase, htrans, heq⟩
  · rw [heq]
    exact h
  · rw [heq]
    rcases scheduler_of_transition htrans with rfl | ⟨l, request, run, hcreating, rfl, hruns⟩
    · refine guarded_update h move.1 phase fun l request hphase => ?_
      subst hphase
      obtain ⟨-, l', parameters, hlooking, hnone, hname, htag⟩ :=
        lookup_of_creating (hdedup move.1) htrans
      rw [hname, htag]
      exact ⟨hnone, halone l' parameters hlooking hnone⟩
    · refine guarded_create h hcreating hruns fun l' request hphase => ?_
      subst hphase
      obtain ⟨-, l'', parameters, hlooking, -⟩ := lookup_of_creating (hdedup move.1) htrans
      rw [hcreating] at hlooking
      cases hlooking

/-- If no lookup falls between a fruitless lookup and the creation that follows it, at most one run
is created for each algorithm and tag. -/
theorem deduplication_safe_of_lookups_alone (algs : ι → RemoteAlgorithm F C V α R)
    (hdedup : ∀ i, (algs i).forceRun = false) (existing : Scheduler ι F C)
    (hexisting : ∀ run ∈ existing.runs, run.origin = none) (kwargs : ι → RunArgs V)
    (σ : List (ι × Answer V))
    (halone : Along (Submissions.step algs) (LooksUpAlone algs) (started existing kwargs) σ) :
    CreatedOnce (run (Submissions.step algs) (started existing kwargs) σ) :=
  (run_induction (guarded_step hdedup) (guarded_started hexisting kwargs) halone).once

end Guard

/-! ### Two invocations -/

section Race

variable {F C V α R : Type}

/-- What two invocations await. -/
def both (first second : Phase Bool F C V α R) : Bool → Phase Bool F C V α R :=
  fun i => bif i then second else first

variable {alg : RemoteAlgorithm F C V α R} {scheduler scheduler' : Scheduler Bool F C}
  {first second phase : Phase Bool F C V α R} {answer : Answer V}

theorem step_first (h : alg.resume false scheduler first answer = some (scheduler', phase)) :
    Submissions.step (fun _ => alg) ⟨scheduler, both first second⟩ (false, answer) =
      ⟨scheduler', both phase second⟩ := by
  have hphase : both first second false = first := rfl
  simp only [Submissions.step, hphase, h]
  exact congrArg (Submissions.mk scheduler') (funext fun i => by cases i <;> rfl)

theorem step_second (h : alg.resume true scheduler second answer = some (scheduler', phase)) :
    Submissions.step (fun _ => alg) ⟨scheduler, both first second⟩ (true, answer) =
      ⟨scheduler', both first phase⟩ := by
  have hphase : both first second true = second := rfl
  simp only [Submissions.step, hphase, h]
  exact congrArg (Submissions.mk scheduler') (funext fun i => by cases i <;> rfl)

end Race

/-- One of the two invocations creates its run before the other looks up, and reuses it. -/
def orderlyAnswers : List (Bool × Answer Unit) :=
  [(false, .resolves Dict.empty), (false, .ends), (false, .lists []), (false, .creates "run-1" none),
    (true, .resolves Dict.empty), (true, .ends), (true, .lists ["run-1"]), (true, .describes)]

/-- Both invocations look up before either creates its run. -/
def racingAnswers : List (Bool × Answer Unit) :=
  [(false, .resolves Dict.empty), (false, .ends), (true, .resolves Dict.empty), (true, .ends),
    (false, .lists []), (true, .lists []), (false, .creates "run-1" none),
    (true, .creates "run-2" none)]

def noRuns : Scheduler Bool {t : Json.FloatText // t.valid = true} Unit := ⟨[], List.nodup_nil⟩

def firstRun : RemoteRun Bool {t : Json.FloatText // t.valid = true} Unit :=
  ⟨forecastRequest 1, "run-1", none, some (false, 0)⟩

def secondRun : RemoteRun Bool {t : Json.FloatText // t.valid = true} Unit :=
  ⟨forecastRequest 1, "run-2", none, some (true, 0)⟩

def oneRun : Scheduler Bool {t : Json.FloatText // t.valid = true} Unit :=
  ⟨[firstRun], List.nodup_singleton _⟩

def twoRuns : Scheduler Bool {t : Json.FloatText // t.valid = true} Unit :=
  ⟨[firstRun, secondRun], by simp [firstRun, secondRun]⟩

theorem create_firstRun : noRuns.create firstRun = some oneRun := rfl

theorem create_secondRun : oneRun.create secondRun = some twoRuns := by
  have hid : secondRun.id ∉ oneRun.runs.map RemoteRun.id := by
    simp [firstRun, secondRun, oneRun]
  rw [Scheduler.create, dif_neg hid]
  rfl

theorem started_forecasts : started noRuns (fun _ => Dict.empty) =
    (⟨noRuns, both (.resolving Dict.empty) (.resolving Dict.empty)⟩ :
      Submissions Bool _ Unit Unit Int (List String)) :=
  congrArg (Submissions.mk noRuns) (funext fun i => by cases i <;> rfl)

theorem looksUpAlone_first {F C V α R : Type} (algs : Bool → RemoteAlgorithm F C V α R)
    (scheduler : Scheduler Bool F C) (first : Phase Bool F C V α R) (kwargs : RunArgs V)
    (answer : Answer V) :
    LooksUpAlone algs ⟨scheduler, both first (.resolving kwargs)⟩ (false, answer) := by
  intro l parameters _ _ j hj l' request hcreating
  cases j with
  | false => exact absurd rfl hj
  | true => cases hcreating

theorem looksUpAlone_second {F C V α R : Type} (algs : Bool → RemoteAlgorithm F C V α R)
    (scheduler : Scheduler Bool F C) (l : Submitting V α) (parameters : Json F)
    (second : Phase Bool F C V α R) (answer : Answer V) :
    LooksUpAlone algs ⟨scheduler, both (.lookingUp l parameters) second⟩ (true, answer) := by
  intro _ _ _ _ j hj l' request hcreating
  cases j with
  | true => exact absurd rfl hj
  | false => cases hcreating

theorem resume_listed : forecasts.resume true oneRun
    (.lookingUp (forecastLoop [] 1 [2]) (forecastParameters 1)) (.lists ["run-1"]) =
      some (oneRun, .describing (forecastLoop [] 1 [2]) (forecastParameters 1) [] "run-1" []) :=
  rfl

theorem deduplication_safe_orderly :
    CreatedOnce (run (Submissions.step fun _ => forecasts) (started noRuns fun _ => Dict.empty)
      orderlyAnswers) := by
  refine deduplication_safe_of_lookups_alone (fun _ => forecasts) (fun _ => rfl) noRuns
    (by simp [noRuns]) (fun _ => Dict.empty) orderlyAnswers ?_
  rw [started_forecasts]
  refine ⟨looksUpAlone_first _ _ _ _ _, ?_⟩
  rw [step_first (resume_resolving false noRuns)]
  refine ⟨looksUpAlone_first _ _ _ _ _, ?_⟩
  rw [step_first (resume_running false noRuns)]
  refine ⟨looksUpAlone_first _ _ _ _ _, ?_⟩
  rw [step_first (resume_lookingUp false rfl [] 1 [2])]
  refine ⟨looksUpAlone_first _ _ _ _ _, ?_⟩
  rw [step_first (resume_creating false create_firstRun)]
  refine ⟨looksUpAlone_second _ _ _ _ _ _, ?_⟩
  rw [step_second (resume_resolving true oneRun)]
  refine ⟨looksUpAlone_second _ _ _ _ _ _, ?_⟩
  rw [step_second (resume_running true oneRun)]
  refine ⟨looksUpAlone_second _ _ _ _ _ _, ?_⟩
  rw [step_second resume_listed]
  exact ⟨looksUpAlone_second _ _ _ _ _ _, trivial⟩

theorem run_racing : run (Submissions.step fun _ => forecasts)
    (started noRuns fun _ => Dict.empty) racingAnswers =
      ⟨twoRuns, both (.lookingUp (forecastLoop ["run-1"] 2 []) (forecastParameters 2))
        (.lookingUp (forecastLoop ["run-2"] 2 []) (forecastParameters 2))⟩ := by
  rw [started_forecasts, racingAnswers, run_cons, step_first (resume_resolving false noRuns),
    run_cons, step_first (resume_running false noRuns),
    run_cons, step_second (resume_resolving true noRuns),
    run_cons, step_second (resume_running true noRuns),
    run_cons, step_first (resume_lookingUp false rfl [] 1 [2]),
    run_cons, step_second (resume_lookingUp true rfl [] 1 [2]),
    run_cons, step_first (resume_creating false create_firstRun),
    run_cons, step_second (resume_creating true create_secondRun)]
  rfl

/-- Two runs are created for one algorithm and tag. -/
theorem two_runs_created :
    ((run (Submissions.step fun _ => forecasts) (started noRuns fun _ => Dict.empty)
        racingAnswers).scheduler.under "forecast" "nightly").map (fun run => (run.id, run.origin)) =
        [("run-1", some (false, 0)), ("run-2", some (true, 0))] ∧
      ¬ CreatedOnce (run (Submissions.step fun _ => forecasts) (started noRuns fun _ => Dict.empty)
        racingAnswers) := by
  have hunder : twoRuns.under "forecast" "nightly" = [firstRun, secondRun] := by
    simp [Scheduler.under, twoRuns, firstRun, secondRun, forecastRequest, RemoteRun.Under]
  rw [run_racing]
  refine ⟨by rw [hunder]; rfl, fun honce => ?_⟩
  have hle := honce "forecast" "nightly"
  rw [hunder] at hle
  exact absurd hle (by simp [firstRun, secondRun])

end NexusSdk.Algorithms
