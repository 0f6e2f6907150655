import NexusSdk.Algorithms.Steps
import Mathlib.Data.Prod.Lex

/-! The run of a remote algorithm past the resolution of its inputs: it ends after finitely many
answers, and if neither its own code nor a call of the scheduler raises, it ends with its result. -/

namespace NexusSdk.Algorithms

open Lib Input

variable {ι F C V α R : Type}

/-! ### The end of a run -/

/-- Counts down to the end of a run whose inputs are resolved: the payloads that are left, what is
left to do for the first of them, and the runs that are left to describe. -/
def Phase.left (alg : RemoteAlgorithm F C V α R) : Phase ι F C V α R → ℕ ×ₗ ℕ ×ₗ ℕ
  | .running args =>
    match alg.coreRun args with
    | .ok payloads => toLex (payloads.length + 1, toLex (0, 0))
    | .error _ => toLex (1, toLex (0, 0))
  | .lookingUp l _ => toLex (l.rest.length + 1, toLex (2, 0))
  | .describing l _ _ _ remaining => toLex (l.rest.length + 1, toLex (1, remaining.length))
  | .creating l _ => toLex (l.rest.length + 1, toLex (0, 0))
  | .resolving _ | .done _ _ => toLex (0, toLex (0, 0))

section Left

variable {alg : RemoteAlgorithm F C V α R} {l : Submitting V α}

@[simp] theorem left_failed (e : PyExc) :
    (Phase.failed e : Phase ι F C V α R).left alg = ⊥ := rfl

theorem bot_lt_left (n : ℕ) (step : ℕ ×ₗ ℕ) : (⊥ : ℕ ×ₗ ℕ ×ₗ ℕ) < toLex (n + 1, step) :=
  Prod.Lex.toLex_lt_toLex.mpr (.inl (Nat.succ_pos n))

theorem left_submit (args : RunArgs V) (commonTag : String) (requestIds : List String)
    (payloads : List α) :
    (alg.submit args commonTag requestIds payloads : Phase ι F C V α R).left alg ≤
      toLex (payloads.length, toLex (2, 0)) := by
  refine submit_rule (P := fun phase => phase.left alg ≤ toLex (payloads.length, toLex (2, 0)))
    args commonTag requestIds payloads ?_ ?_ ?_ ?_
  · intro e
    exact bot_le
  · intro hnil r
    exact bot_le
  · intro payload rest tag parameters hcons _ _
    simp [Phase.left, hcons]
  · intro payload rest tag hcons _ _ request _ _
    simp [Phase.left, Prod.Lex.toLex_le_toLex, hcons]

theorem left_create (parameters : Json F) :
    (alg.create l parameters : Phase ι F C V α R).left alg ≤
      toLex (l.rest.length + 1, toLex (0, 0)) := by
  refine create_rule (P := fun phase => phase.left alg ≤ toLex (l.rest.length + 1, toLex (0, 0)))
    parameters ?_ ?_
  · intro e
    exact bot_le
  · intro request _ _
    simp [Phase.left]

theorem left_next (id : String) (step : ℕ ×ₗ ℕ) :
    (alg.next l id : Phase ι F C V α R).left alg < toLex (l.rest.length + 1, step) := by
  refine (left_submit ..).trans_lt ?_
  simp [Prod.Lex.toLex_lt_toLex]

theorem left_describe (parameters : Json F) (described : List (Option (RemoteRun ι F C)))
    (remaining : List String) :
    (alg.describe l parameters described remaining).left alg <
      toLex (l.rest.length + 1, toLex (1, remaining.length)) := by
  refine describe_rule (P := fun phase => phase.left alg <
    toLex (l.rest.length + 1, toLex (1, remaining.length))) ?_ ?_ ?_ ?_
  · intro e
    exact bot_lt_left _ _
  · intro requestId rest hcons
    simp [Phase.left, Prod.Lex.toLex_lt_toLex, hcons]
  · intro run _
    exact left_next run.id _
  · intro _ _
    refine (left_create parameters).trans_lt ?_
    simp [Prod.Lex.toLex_lt_toLex]

theorem left_afterRun (args : RunArgs V) :
    (alg.afterRun args : Phase ι F C V α R).left alg <
      (Phase.running args : Phase ι F C V α R).left alg := by
  unfold RemoteAlgorithm.afterRun
  cases hrun : alg.coreRun args with
  | error e =>
    simp only [Phase.left, hrun]
    exact bot_lt_left _ _
  | ok payloads =>
    cases alg.generateTag args with
    | error e =>
      simp only [Phase.left, hrun]
      exact bot_lt_left _ _
    | ok commonTag =>
      refine (left_submit args commonTag [] payloads).trans_lt ?_
      simp [Phase.left, hrun, Prod.Lex.toLex_lt_toLex]

/-- Each answer brings the run closer to its end. -/
theorem left_resume {i : ι} {scheduler scheduler' : Scheduler ι F C}
    {phase phase' : Phase ι F C V α R} {answer : Answer V}
    (hresolved : ∀ kwargs, phase ≠ .resolving kwargs)
    (h : alg.resume i scheduler phase answer = some (scheduler', phase')) :
    phase'.left alg < phase.left alg := by
  cases transition_of_resume h with
  | resolved kwargs results => exact absurd rfl (hresolved kwargs)
  | ran args => exact left_afterRun args
  | listed l parameters ids _ =>
    refine (left_describe ..).trans ?_
    simp [Phase.left, Prod.Lex.toLex_lt_toLex]
  | described l parameters described requestId remaining run _ => exact left_describe ..
  | created l request id receivedAt scheduler' _ phase hphase =>
    rcases hphase with rfl | ⟨e, rfl⟩
    · exact left_next id _
    · exact bot_lt_left _ _
  | raised phase e =>
    cases phase with
    | resolving kwargs => exact absurd rfl (hresolved kwargs)
    | done submission result =>
      unfold RemoteAlgorithm.resume at h
      cases answer <;> cases h
    | running args =>
      rw [left_failed, Phase.left]
      split <;> exact bot_lt_left _ _
    | _ => exact bot_lt_left _ _

end Left

/-- A run does not come back to the resolution of its inputs. -/
theorem ne_resolving_of_resume {alg : RemoteAlgorithm F C V α R} {i : ι}
    {scheduler scheduler' : Scheduler ι F C} {phase phase' : Phase ι F C V α R}
    {answer : Answer V} (h : alg.resume i scheduler phase answer = some (scheduler', phase'))
    (kwargs : RunArgs V) : phase' ≠ .resolving kwargs := by
  have hcreate (l : Submitting V α) (parameters : Json F) :
      (alg.create l parameters : Phase ι F C V α R) ≠ .resolving kwargs :=
    create_rule (P := (· ≠ .resolving kwargs)) parameters (by simp [Phase.failed]) (by simp)
  have hsubmit (args : RunArgs V) (commonTag : String) (ids : List String) (payloads : List α) :
      (alg.submit args commonTag ids payloads : Phase ι F C V α R) ≠ .resolving kwargs :=
    submit_rule (P := (· ≠ .resolving kwargs)) args commonTag ids payloads (by simp [Phase.failed])
      (by simp) (by simp) (by simp)
  have hdescribe (l : Submitting V α) (parameters : Json F)
      (described : List (Option (RemoteRun ι F C))) (remaining : List String) :
      alg.describe l parameters described remaining ≠ .resolving kwargs :=
    describe_rule (P := (· ≠ .resolving kwargs)) (by simp [Phase.failed]) (by simp)
      (fun run _ => hsubmit _ _ _ _) fun _ _ => hcreate l parameters
  cases transition_of_resume h with
  | resolved kwargs' results =>
    unfold afterResolve
    split <;> simp [Phase.failed]
  | ran args =>
    unfold RemoteAlgorithm.afterRun
    split
    · simp [Phase.failed]
    · split
      · simp [Phase.failed]
      · exact hsubmit _ _ _ _
  | listed l parameters ids _ => exact hdescribe _ _ _ _
  | described l parameters described requestId remaining run _ => exact hdescribe _ _ _ _
  | created l request id receivedAt scheduler' _ phase hphase =>
    rcases hphase with rfl | ⟨e, rfl⟩
    · exact hsubmit _ _ _ _
    · simp [Phase.failed]
  | raised phase e => simp [Phase.failed]

/-! ### A run that raises nothing -/

namespace RemoteAlgorithm

variable (alg : RemoteAlgorithm F C V α R)

/-- The code of the algorithm raises nothing with `args`; its payloads and its tag are these. -/
structure Smooth (args : RunArgs V) (payloads : List α) (commonTag : String) : Prop where
  coreRun : alg.coreRun args = .ok payloads
  generateTag : alg.generateTag args = .ok commonTag
  prepare : ∀ p ∈ payloads, ∃ prepared, alg.prepare args commonTag p = .ok prepared
  config : ∀ p ∈ payloads, ∃ config, alg.generateRemoteConfigFromRemotePayload p args = .ok config
  parentRequest : ∃ request, alg.parentRequest args = .ok request
  transform : ∀ ids, ∃ r, alg.transformSubmissionResult ids commonTag = .ok r

/-- The answer is none of an exception, and the metadata of a run is there with its time. -/
def Succeeds (scheduler : Scheduler ι F C) : Phase ι F C V α R → Answer V → Prop
  | .resolving _, _ | .done _ _, _ => True
  | _, .raises _ | _, .createsAndRaises _ _ _ | _, .unknown => False
  | .running args, _ => ∃ payloads commonTag, alg.Smooth args payloads commonTag
  | .describing _ _ _ requestId _, .describes =>
    ∀ run, scheduler.find? requestId = some run → ∃ receivedAt, run.receivedAt = some receivedAt
  | _, _ => True

/-- The id is that of a run of the algorithm under the tag of the payload. -/
def SubmittedAs (scheduler : Scheduler ι F C) (args : RunArgs V) (commonTag : String) (payload : α)
    (id : String) : Prop :=
  ∃ tag, alg.payloadTag args commonTag payload = .ok tag ∧
    ∃ run ∈ scheduler.runs, run.id = id ∧ run.Under alg.remoteName tag

/-- All payloads for `args` are submitted, and the result is that of their submission. -/
def Submitted (scheduler : Scheduler ι F C) (args : RunArgs V) (ids : List String)
    (commonTag : String) (result : Except PyExc R) : Prop :=
  ∃ payloads, alg.Smooth args payloads commonTag ∧
    payloads.Forall₂ (alg.SubmittedAs scheduler args commonTag) ids ∧
    result = alg.transformSubmissionResult ids commonTag

structure AtPayload (scheduler : Scheduler ι F C) (args : RunArgs V) (l : Submitting V α) :
    Prop where
  args_eq : l.args = args
  tag : alg.payloadTag args l.commonTag l.payload = .ok l.tag
  payloads : ∃ before, alg.Smooth args (before ++ l.payload :: l.rest) l.commonTag ∧
    before.Forall₂ (alg.SubmittedAs scheduler args l.commonTag) l.requestIds

/-- Where a run with `args` stands that has raised nothing. -/
def PhaseSound (scheduler : Scheduler ι F C) (args : RunArgs V) : Phase ι F C V α R → Prop
  | .resolving _ => False
  | .running args' => args' = args
  | .lookingUp l _ => alg.AtPayload scheduler args l
  | .describing l _ described requestId remaining =>
    alg.AtPayload scheduler args l ∧
      (∀ o ∈ described, ∃ run ∈ scheduler.under alg.remoteName l.tag, o = some run ∧
        ∃ receivedAt, run.receivedAt = some receivedAt) ∧
      ∀ id ∈ requestId :: remaining, ∃ run ∈ scheduler.under alg.remoteName l.tag, run.id = id
  | .creating l request =>
    alg.AtPayload scheduler args l ∧ request.algorithmName = alg.remoteName ∧ request.tag = l.tag
  | .done (some (ids, commonTag)) result => alg.Submitted scheduler args ids commonTag result
  | .done none _ => False

variable {alg} {scheduler scheduler' : Scheduler ι F C} {args : RunArgs V} {l : Submitting V α}

/-! The runs of the scheduler only become more. -/

theorem under_mono {name tag : String} (hruns : ∀ run ∈ scheduler.runs, run ∈ scheduler'.runs)
    {run : RemoteRun ι F C} (h : run ∈ scheduler.under name tag) :
    run ∈ scheduler'.under name tag := by
  obtain ⟨hrun, hunder⟩ := mem_under.mp h
  exact mem_under.mpr ⟨hruns run hrun, hunder⟩

theorem SubmittedAs.mono {commonTag id : String} {p : α}
    (hruns : ∀ run ∈ scheduler.runs, run ∈ scheduler'.runs)
    (h : alg.SubmittedAs scheduler args commonTag p id) :
    alg.SubmittedAs scheduler' args commonTag p id := by
  obtain ⟨tag, htag, run, hrun, hspec⟩ := h
  exact ⟨tag, htag, run, hruns run hrun, hspec⟩

theorem AtPayload.mono (hruns : ∀ run ∈ scheduler.runs, run ∈ scheduler'.runs)
    (h : alg.AtPayload scheduler args l) : alg.AtPayload scheduler' args l := by
  obtain ⟨before, hsmooth, hsubmitted⟩ := h.payloads
  exact ⟨h.args_eq, h.tag, before, hsmooth, hsubmitted.imp fun _ _ => .mono hruns⟩

theorem PhaseSound.mono {phase : Phase ι F C V α R}
    (hruns : ∀ run ∈ scheduler.runs, run ∈ scheduler'.runs)
    (h : alg.PhaseSound scheduler args phase) : alg.PhaseSound scheduler' args phase := by
  cases phase with
  | resolving kwargs => exact h
  | running args' => exact h
  | lookingUp l parameters => exact AtPayload.mono hruns h
  | describing l parameters described requestId remaining =>
    obtain ⟨hat, hdescribed, hremaining⟩ := h
    refine ⟨hat.mono hruns, fun o ho => ?_, fun id hid => ?_⟩
    · obtain ⟨run, hrun, hspec⟩ := hdescribed o ho
      exact ⟨run, under_mono hruns hrun, hspec⟩
    · obtain ⟨run, hrun, hspec⟩ := hremaining id hid
      exact ⟨run, under_mono hruns hrun, hspec⟩
  | creating l request => exact ⟨h.1.mono hruns, h.2⟩
  | done submission result =>
    cases submission with
    | none => exact h
    | some submission =>
      obtain ⟨payloads, hsmooth, hsubmitted, hresult⟩ := h
      exact ⟨payloads, hsmooth, hsubmitted.imp fun _ _ => .mono hruns, hresult⟩

/-! Where the control flow leads. -/

theorem phaseSound_create (parameters : Json F) (h : alg.AtPayload scheduler args l) :
    alg.PhaseSound scheduler args (alg.create l parameters) := by
  obtain ⟨before, hsmooth, -⟩ := h.payloads
  obtain ⟨config, hconfig⟩ := hsmooth.config l.payload (by simp)
  obtain ⟨parentRequest, hparent⟩ := hsmooth.parentRequest
  have hrequest : alg.request l parameters = .ok {
      algorithmParameters := parameters
      algorithmName := alg.remoteName
      customConfiguration := config.or alg.remoteConfig
      parentRequest
      tag := l.tag
      dryRun := alg.dryRun } := by
    rw [request, h.args_eq, hconfig, hparent]
    rfl
  rw [create, hrequest]
  exact ⟨h, rfl, rfl⟩

theorem phaseSound_submit {before rest : List α} {commonTag : String} {requestIds : List String}
    (hsmooth : alg.Smooth args (before ++ rest) commonTag)
    (hsubmitted : before.Forall₂ (alg.SubmittedAs scheduler args commonTag) requestIds) :
    alg.PhaseSound scheduler args (alg.submit args commonTag requestIds rest) := by
  cases rest with
  | nil =>
    rw [List.append_nil] at hsmooth
    exact ⟨before, hsmooth, hsubmitted, rfl⟩
  | cons payload rest =>
    obtain ⟨⟨tag, parameters⟩, hprepare⟩ := hsmooth.prepare payload (by simp)
    have hat : alg.AtPayload scheduler args ⟨args, commonTag, requestIds, payload, tag, rest⟩ :=
      ⟨rfl, payloadTag_of_prepare hprepare, before, hsmooth, hsubmitted⟩
    simp only [submit, hprepare]
    split
    · exact phaseSound_create parameters hat
    · exact hat

theorem phaseSound_next (h : alg.AtPayload scheduler args l) {run : RemoteRun ι F C}
    (hrun : run ∈ scheduler.under alg.remoteName l.tag) :
    alg.PhaseSound scheduler args (alg.next l run.id) := by
  obtain ⟨before, hsmooth, hsubmitted⟩ := h.payloads
  obtain ⟨hmem, hunder⟩ := mem_under.mp hrun
  rw [next, h.args_eq]
  have hall : alg.Smooth args ((before ++ [l.payload]) ++ l.rest) l.commonTag := by
    rwa [List.append_assoc, List.singleton_append]
  exact phaseSound_submit hall
    (List.rel_append hsubmitted (.cons ⟨l.tag, h.tag, run, hmem, rfl, hunder⟩ .nil))

theorem phaseSound_describe {parameters : Json F} {described : List (Option (RemoteRun ι F C))}
    {remaining : List String} (h : alg.AtPayload scheduler args l)
    (hdescribed : ∀ o ∈ described, ∃ run ∈ scheduler.under alg.remoteName l.tag, o = some run ∧
      ∃ receivedAt, run.receivedAt = some receivedAt)
    (hremaining : ∀ id ∈ remaining, ∃ run ∈ scheduler.under alg.remoteName l.tag, run.id = id) :
    alg.PhaseSound scheduler args (alg.describe l parameters described remaining) := by
  cases remaining with
  | cons requestId remaining => exact ⟨h, hdescribed, hremaining⟩
  | nil =>
    obtain ⟨found, hfound⟩ := latest_ok fun o ho => by
      obtain ⟨run, -, hspec⟩ := hdescribed o ho
      exact ⟨run, hspec⟩
    rw [describe, hfound]
    cases found with
    | none => exact phaseSound_create parameters h
    | some run =>
      obtain ⟨run', hrun', heq, -⟩ := hdescribed _ ((latest_spec hfound).1 run rfl)
      obtain rfl := Option.some.inj heq
      exact phaseSound_next h hrun'

theorem runs_of_resume {i : ι} {phase phase' : Phase ι F C V α R} {answer : Answer V}
    (h : alg.resume i scheduler phase answer = some (scheduler', phase')) :
    ∀ run ∈ scheduler.runs, run ∈ scheduler'.runs := by
  cases transition_of_resume h with
  | created l request id receivedAt scheduler' hcreate phase _ =>
    intro run hrun
    rw [runs_create hcreate]
    exact List.mem_append_left _ hrun
  | _ => exact fun _ hrun => hrun

/-- A successful answer keeps the run from raising. -/
theorem phaseSound_resume {i : ι} {phase phase' : Phase ι F C V α R} {answer : Answer V}
    (h : alg.PhaseSound scheduler args phase) (hanswer : alg.Succeeds scheduler phase answer)
    (hresume : alg.resume i scheduler phase answer = some (scheduler', phase')) :
    alg.PhaseSound scheduler' args phase' := by
  have hruns := runs_of_resume hresume
  unfold RemoteAlgorithm.resume at hresume
  split at hresume
  · exact absurd h id
  · next args' =>
    cases hresume
    obtain ⟨payloads, commonTag, hsmooth⟩ := hanswer
    obtain rfl : args' = args := h
    simp only [afterRun, hsmooth.coreRun, hsmooth.generateTag]
    have hnil : alg.Smooth args' ([] ++ payloads) commonTag := hsmooth
    exact phaseSound_submit hnil .nil
  · next l parameters ids =>
    split at hresume
    · next hids =>
      cases hresume
      refine phaseSound_describe h (by simp) fun id hid => ?_
      exact List.mem_map.mp (hids.mem_iff.mp hid)
    · cases hresume
  · next l parameters described requestId remaining =>
    obtain ⟨run, hrun, heq⟩ := Option.map_eq_some_iff.mp hresume
    cases heq
    obtain ⟨hat, hdescribed, hremaining⟩ := h
    refine phaseSound_describe hat ?_ fun id hid =>
      hremaining id (List.mem_cons_of_mem requestId hid)
    intro o ho
    rcases List.mem_append.mp ho with ho | ho
    · exact hdescribed o ho
    · obtain rfl := List.mem_singleton.mp ho
      obtain ⟨hmem, hid⟩ := find?_spec hrun
      obtain ⟨run', hrun', hid'⟩ := hremaining requestId List.mem_cons_self
      obtain rfl := eq_of_id hmem (mem_under.mp hrun').1 (hid.trans hid'.symm)
      exact ⟨run, hrun', rfl, hanswer run hrun⟩
  · exact absurd hanswer id
  · next l request id receivedAt =>
    obtain ⟨s, hcreate, heq⟩ := Option.map_eq_some_iff.mp hresume
    cases heq
    obtain ⟨hat, hname, htag⟩ := h
    have hnew : (⟨request, id, receivedAt, some (i, l.requestIds.length)⟩ : RemoteRun ι F C) ∈
        scheduler'.under alg.remoteName l.tag := by
      refine mem_under.mpr ⟨?_, hname, htag⟩
      rw [runs_create hcreate]
      exact List.mem_append_right _ (List.mem_singleton_self _)
    exact phaseSound_next (hat.mono hruns) hnew
  · exact absurd hanswer id
  · cases hresume
  · next e hdone =>
    cases hresume
    cases phase with
    | resolving kwargs => exact absurd h id
    | done submission result => exact absurd rfl (hdone submission result)
    | _ => exact absurd hanswer id
  · cases hresume

/-- A run that raised nothing ends with its result. -/
theorem result_of_done {submission : Option (List String × String)} {result : Except PyExc R}
    (h : alg.PhaseSound scheduler args (.done submission result)) :
    ∃ ids commonTag r, submission = some (ids, commonTag) ∧ result = .ok r ∧
      alg.Submitted scheduler args ids commonTag (.ok r) := by
  cases submission with
  | none => exact absurd h id
  | some submission =>
    obtain ⟨ids, commonTag⟩ := submission
    obtain ⟨payloads, hsmooth, hsubmitted, rfl⟩ := h
    obtain ⟨r, hr⟩ := hsmooth.transform ids
    exact ⟨ids, commonTag, r, rfl, hr, payloads, hsmooth, hsubmitted, hr.symm⟩

end RemoteAlgorithm

end NexusSdk.Algorithms
