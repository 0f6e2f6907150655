import NexusSdk.Algorithms.SpawnedRuns

/-! Invocations of one algorithm that follow on each other, as the restarts of a process do.  One
that was cut off may have created runs whose ids it never got. -/

namespace NexusSdk.Algorithms

open Lib Input

section Restarts

variable {ι F C V α R : Type}

/-- While one invocation moves, the others have not begun or have ended. -/
def OneAtATime (s : Submissions ι F C V α R) (move : ι × Answer V) : Prop :=
  ∀ j ≠ move.1, (∃ kwargs, s.phases j = .resolving kwargs) ∨
    ∃ submission result, s.phases j = .done submission result

theorem OneAtATime.looksUpAlone {s : Submissions ι F C V α R} {move : ι × Answer V}
    (h : OneAtATime s move) (algs : ι → RemoteAlgorithm F C V α R) :
    LooksUpAlone algs s move := by
  intro l parameters _ _ j hj l' request hcreating
  rcases h j hj with ⟨kwargs, hphase⟩ | ⟨submission, result, hphase⟩
  · rw [hphase] at hcreating
    cases hcreating
  · rw [hphase] at hcreating
    cases hcreating

/-- Under an algorithm and a tag there are the runs of others as before, or one run that was
created. -/
def Reuses (existing : Scheduler ι F C) (s : Submissions ι F C V α R) : Prop :=
  ∀ name tag, s.scheduler.under name tag = existing.under name tag ∨
    ∃ run, run.origin.isSome = true ∧ s.scheduler.under name tag = [run]

variable {existing : Scheduler ι F C} {s : Submissions ι F C V α R}

/-- The first run under its algorithm and tag is created. -/
theorem Reuses.create (h : Reuses existing s) {scheduler : Scheduler ι F C}
    {run : RemoteRun ι F C} (hruns : scheduler.runs = s.scheduler.runs ++ [run])
    (horigin : run.origin.isSome = true)
    (hfresh : s.scheduler.under run.algorithmName run.tag = []) (phases : ι → Phase ι F C V α R) :
    Reuses existing ⟨scheduler, phases⟩ := by
  intro name tag
  show scheduler.under name tag = _ ∨ ∃ run, _ ∧ scheduler.under name tag = [run]
  rw [under_append hruns]
  by_cases hunder : run.Under name tag
  · rw [hunder.1, hunder.2] at hfresh
    rw [if_pos hunder, hfresh]
    exact .inr ⟨run, horigin, rfl⟩
  · rw [if_neg hunder, List.append_nil]
    exact h name tag

variable [DecidableEq ι] {algs : ι → RemoteAlgorithm F C V α R}

theorem Reuses.step (h : Reuses existing s) (hguarded : Guarded s) (move : ι × Answer V) :
    Reuses existing (s.step algs move) := by
  rcases step_cases algs s move with heq | ⟨scheduler, phase, htrans, heq⟩
  · rw [heq]
    exact h
  · rw [heq]
    generalize hbefore : s.phases move.1 = before at htrans
    cases htrans with
    | created l request id receivedAt scheduler hcreate phase _ =>
      exact h.create (runs_create hcreate) rfl (hguarded.fresh move.1 l request hbefore) _
    | _ => exact h

/-- If no lookup falls between a fruitless one and the creation that follows it, no run is created
beside another one. -/
theorem reuses_of_lookups_alone (hdedup : ∀ i, (algs i).forceRun = false)
    (hexisting : ∀ run ∈ existing.runs, run.origin = none) {kwargs : ι → RunArgs V}
    {σ : List (ι × Answer V)}
    (halone : Along (Submissions.step algs) (LooksUpAlone algs) (started existing kwargs) σ) :
    Reuses existing (run (Submissions.step algs) (started existing kwargs) σ) :=
  (run_induction (I := fun s => Guarded s ∧ Reuses existing s)
    (fun s move h hlookup => ⟨guarded_step hdedup s move h.1 hlookup, h.2.step h.1 move⟩)
    ⟨guarded_started hexisting kwargs, fun _ _ => .inl rfl⟩ halone).2

end Restarts

section Plan

variable {F C V α R : Type} {alg : RemoteAlgorithm F C V α R} {kwargs results : RunArgs V}

/-- The results of the input cache determine what is submitted. -/
theorem Plan.eq_of_results (q q' : Plan alg kwargs (· = results)) : q = q' := by
  obtain ⟨results₁, args, payloads, commonTag, rfl, hargs, hcore, htag⟩ := q
  obtain ⟨results₂, args', payloads', commonTag', rfl, hargs', hcore', htag'⟩ := q'
  obtain rfl := Except.ok.inj (hargs.symm.trans hargs')
  obtain rfl := Except.ok.inj (hcore.symm.trans hcore')
  obtain rfl := Except.ok.inj (htag.symm.trans htag')
  rfl

end Plan

/-- Invocations of an algorithm that follow on each other create a run only if there is none under
its tag, whatever cut the earlier ones off.  When one comes to the end of its payloads, a payload
with a tag of its own has exactly one run, and the process of that run binds the payload. -/
theorem restarts_submit_once {ι F C V α R O X S : Type} [DecidableEq ι] (J : JsonModule F)
    (alg : RemoteAlgorithm F C V α R) (app : Core.Application α O X S) (T : JsonPayloadType J α)
    (hagree : Agree J alg app T) (hdedup : alg.forceRun = false) (existing : Scheduler ι F C)
    (hexisting : ∀ run ∈ existing.runs, run.origin = none) (kwargs results : RunArgs V)
    (σ : List (ι × Answer V)) (hresults : ∀ i r, (i, .resolves r) ∈ σ → r = results)
    (hσ : Along (Submissions.step fun _ => alg) OneAtATime (started existing fun _ => kwargs) σ) :
    let s := run (Submissions.step fun _ => alg) (started existing fun _ => kwargs) σ
    (∀ name tag, s.scheduler.under name tag = existing.under name tag ∨
      ∃ run, run.origin.isSome = true ∧ s.scheduler.under name tag = [run]) ∧
    ∀ (i : ι) (ids : List String) (commonTag : String) (result : Except PyExc R),
      s.phases i = .done (some (ids, commonTag)) result →
      ∃ q : Plan alg kwargs (· = results), q.payloads.length = ids.length ∧
        ∀ (k : ℕ) (p : α) (tag : String), q.payloads[k]? = some p →
          alg.payloadTag q.args q.commonTag p = .ok tag →
          (∀ m p', q.payloads[m]? = some p' → alg.payloadTag q.args q.commonTag p' = .ok tag →
            m = k) →
          existing.under alg.remoteName tag = [] →
          ∃ run, s.scheduler.under alg.remoteName tag = [run] ∧ ids[k]? = some run.id ∧
            BindsPayload app (J.dumps run.algorithmParameters).toUTF8 p := by
  intro s
  have hreuses : Reuses existing s := reuses_of_lookups_alone (fun _ => hdedup) hexisting
    (Along.of_invariant (I := fun _ => True) (fun _ _ _ _ => trivial)
      (fun _ _ _ h => h.looksUpAlone fun _ => alg) trivial hσ)
  obtain ⟨plans, hplans⟩ : ∃ plans : ι → Option (Plan alg kwargs (· = results)),
      FollowsPlans 1 plans s fun _ => 0 := exists_followsPlans hexisting hresults
  refine ⟨hreuses, fun i ids commonTag result hdone => ?_⟩
  have hfollows := hplans.phases i
  rw [hdone] at hfollows
  obtain ⟨q, -, hsubmitted⟩ := hfollows
  refine ⟨q, hsubmitted.length_eq, fun k p tag hp htag hown hnone => ?_⟩
  obtain ⟨hk, hpk⟩ := List.getElem?_eq_some_iff.mp hp
  have hk' : k < ids.length := hsubmitted.length_eq ▸ hk
  have hat : q.SubmittedAs s.scheduler q.payloads[k] ids[k] := hsubmitted.get hk hk'
  rw [hpk] at hat
  obtain ⟨tag', htag', run, hrun, hid, hunder⟩ := hat
  obtain rfl := Except.ok.inj (htag.symm.trans htag')
  have hmem := mem_under.mpr ⟨hrun, hunder⟩
  obtain ⟨created, horigin, honly⟩ : ∃ created, created.origin.isSome = true ∧
      s.scheduler.under alg.remoteName tag = [created] := by
    rcases hreuses alg.remoteName tag with hsame | hcreated
    · rw [hsame, hnone] at hmem
      cases hmem
    · exact hcreated
  rw [honly] at hmem
  obtain rfl := List.mem_singleton.mp hmem
  obtain ⟨⟨j, m⟩, horigin⟩ := Option.isSome_iff_exists.mp horigin
  -- its creator had the same payloads, and the tag names one of them
  obtain ⟨q', -, p', hp', htagged, hbinds⟩ :=
    hplans.bindsPayload (fun _ => app) (fun _ => T) hrun horigin hagree
  obtain rfl := Plan.eq_of_results q q'
  rw [hunder.2] at htagged
  obtain rfl := hown m p' hp' htagged
  obtain rfl := Option.some.inj (hp.symm.trans hp')
  exact ⟨run, honly, by rw [hid, List.getElem?_eq_getElem], hbinds⟩

/-! ### Forecasts with a restart -/

/-- The two forecasts have tags of their own. -/
def taggedForecasts :
    RemoteAlgorithm {t : Json.FloatText // t.valid = true} Unit Unit Int (List String) :=
  { packedForecasts with
    forceRun := false
    generateTagFromRemotePayload := fun p _ => .ok (some (if p = 1 then "monday" else "tuesday")) }

theorem agree_taggedForecasts : Agree utf8Json taggedForecasts forecastApplication counterType where
  toJson := agree_packedForecasts.toJson
  fromJson := agree_packedForecasts.fromJson
  deserialize := agree_packedForecasts.deserialize
  envelopes := agree_packedForecasts.envelopes
  plain h := by cases h
  compressed := agree_packedForecasts.compressed
  prepares := agree_packedForecasts.prepares
  payloadType := agree_packedForecasts.payloadType
  resolves := agree_packedForecasts.resolves

/-- The first invocation is cut off while it creates its first run; the second one finds that run,
and creates the other. -/
def restartedAnswers : List (Bool × Answer Unit) :=
  [(false, .resolves Dict.empty), (false, .ends), (false, .lists []),
    (false, .createsAndRaises "run-1" none (.raised cancelledError "")),
    (true, .resolves Dict.empty), (true, .ends), (true, .lists ["run-1"]), (true, .describes),
    (true, .lists []), (true, .creates "run-2" none)]

theorem oneAtATime_first {F C V α R : Type} {s : Submissions Bool F C V α R} {kwargs : RunArgs V}
    (answer : Answer V) (h : s.phases true = .resolving kwargs) :
    OneAtATime s (false, answer) := by
  intro j hj
  cases j with
  | false => exact absurd rfl hj
  | true => exact .inl ⟨kwargs, h⟩

theorem oneAtATime_second {F C V α R : Type} {s : Submissions Bool F C V α R}
    {submission : Option (List String × String)} {result : Except PyExc R} (answer : Answer V)
    (h : s.phases false = .done submission result) : OneAtATime s (true, answer) := by
  intro j hj
  cases j with
  | false => exact .inr ⟨submission, result, h⟩
  | true => exact absurd rfl hj

theorem along_restartedAnswers :
    Along (Submissions.step fun _ => taggedForecasts) OneAtATime
      (started noRuns fun _ => Dict.empty) restartedAnswers :=
  ⟨oneAtATime_first _ rfl, oneAtATime_first _ rfl, oneAtATime_first _ rfl, oneAtATime_first _ rfl,
    oneAtATime_second _ rfl, oneAtATime_second _ rfl, oneAtATime_second _ rfl,
    oneAtATime_second _ rfl, oneAtATime_second _ rfl, oneAtATime_second _ rfl, trivial⟩

theorem restarts_submit_once_forecasts :
    let s := run (Submissions.step fun _ => taggedForecasts) (started noRuns fun _ => Dict.empty)
      restartedAnswers
    ∃ run, s.scheduler.under "forecast" "monday" = [run] ∧
      BindsPayload forecastApplication (utf8Json.dumps run.algorithmParameters).toUTF8 1 := by
  intro s
  have hdone : s.phases true = .done (some (["run-1", "run-2"], "nightly"))
    (.ok ["run-1", "run-2"]) := rfl
  obtain ⟨-, hends⟩ := restarts_submit_once utf8Json taggedForecasts forecastApplication counterType
    agree_taggedForecasts rfl noRuns (by simp [noRuns]) Dict.empty Dict.empty restartedAnswers
    (by simp [restartedAnswers]) along_restartedAnswers
  obtain ⟨q, -, honce⟩ := hends true _ _ _ hdone
  have hpayloads : [1, 2] = q.payloads := Except.ok.inj q.coreRun_eq
  have hargs : Dict.empty = q.args := by
    obtain ⟨results, args, payloads, commonTag, rfl, hargs, -, -⟩ := q
    exact Except.ok.inj hargs
  rw [← hpayloads, ← hargs] at honce
  have hown : ∀ (m : ℕ) (p : ℤ), [1, 2][m]? = some p →
      taggedForecasts.payloadTag Dict.empty q.commonTag p = .ok "monday" → m = 0 := by
    intro m p hp htag
    rcases m with _ | _ | m
    · rfl
    · obtain rfl := Option.some.inj hp
      have htuesday : "tuesday" = "monday" := Except.ok.inj htag
      simp at htuesday
    · cases hp
  obtain ⟨run, honly, -, hbinds⟩ := honce 0 1 "monday" rfl rfl hown rfl
  exact ⟨run, honly, hbinds⟩

end NexusSdk.Algorithms
