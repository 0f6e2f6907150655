import NexusSdk.Algorithms.Deduplication
import NexusSdk.Algorithms.Runs
import NexusSdk.Core.AppBootstrap

/-! What a remote run is created with, and what its process makes of it: the payloads of every
interleaving of invocations, on their way through the scheduler into the bootstrap of the runs. -/

namespace NexusSdk.Algorithms

open Lib Input

/-! ### What an invocation submits -/

section Plan

variable {ι F C V α R : Type}

/-- The payloads of an invocation with the arguments that its hooks got.  `Resolves` holds of what
the input cache returned to it. -/
structure Plan (alg : RemoteAlgorithm F C V α R) (kwargs : RunArgs V)
    (Resolves : RunArgs V → Prop) where
  results : RunArgs V
  args : RunArgs V
  payloads : List α
  commonTag : String
  resolves : Resolves results
  args_eq : measuredArgs kwargs results = .ok args
  coreRun_eq : alg.coreRun args = .ok payloads
  generateTag_eq : alg.generateTag args = .ok commonTag

/-- The index of the payload that the invocation has come to. -/
def Phase.position? : Phase ι F C V α R → Option Nat
  | .resolving _ | .running _ => some 0
  | .lookingUp l _ | .describing l _ _ _ _ | .creating l _ => some l.requestIds.length
  | .done _ _ => none

variable {alg : RemoteAlgorithm F C V α R} {kwargs : RunArgs V} {Resolves : RunArgs V → Prop}

namespace Plan

variable (q : Plan alg kwargs Resolves)

/-- The payload is submitted as the run with the id. -/
def SubmittedAs (scheduler : Scheduler ι F C) (payload : α) (id : String) : Prop :=
  alg.SubmittedAs scheduler q.args q.commonTag payload id

/-- The loop is at one of the payloads, which is encoded as `parameters`; those before it are
submitted. -/
structure At (scheduler : Scheduler ι F C) (l : Submitting V α) (parameters : Json F) : Prop where
  args : l.args = q.args
  commonTag : l.commonTag = q.commonTag
  prepared : alg.prepare q.args q.commonTag l.payload = .ok (l.tag, parameters)
  payloads : ∃ before, q.payloads = before ++ l.payload :: l.rest ∧
    before.Forall₂ (q.SubmittedAs scheduler) l.requestIds

/-- The request is that of the payload with the index `k`. -/
def Carries (k : Nat) (request : RunRequest F C) : Prop :=
  request.algorithmName = alg.remoteName ∧ ∃ p, q.payloads[k]? = some p ∧
    alg.prepare q.args q.commonTag p = .ok (request.tag, request.algorithmParameters)

end Plan

/-- The invocation submits the payloads of the plan. -/
def Phase.Follows (scheduler : Scheduler ι F C) (q : Option (Plan alg kwargs Resolves)) :
    Phase ι F C V α R → Prop
  | .resolving kwargs' => kwargs' = kwargs
  | .running args => ∃ results, Resolves results ∧ measuredArgs kwargs results = .ok args
  | .lookingUp l parameters => ∃ q' ∈ q, q'.At scheduler l parameters
  | .describing l parameters described requestId remaining =>
    (∃ q' ∈ q, q'.At scheduler l parameters) ∧
      (∀ run, some run ∈ described → run ∈ scheduler.under alg.remoteName l.tag) ∧
      ∀ id ∈ requestId :: remaining, ∃ run ∈ scheduler.under alg.remoteName l.tag, run.id = id
  | .creating l request =>
    ∃ q' ∈ q, ∃ parameters, q'.At scheduler l parameters ∧ alg.request l parameters = .ok request
  | .done (some (ids, _)) _ => ∃ q' ∈ q, q'.payloads.Forall₂ (q'.SubmittedAs scheduler) ids
  | .done none _ => True

/-- The invocation follows the plan, and has left the payloads before the index `n`. -/
def Phase.FollowsFrom (scheduler : Scheduler ι F C) (q : Option (Plan alg kwargs Resolves))
    (n : Nat) (phase : Phase ι F C V α R) : Prop :=
  phase.Follows scheduler q ∧ ∀ m ∈ phase.position?, n ≤ m

variable {scheduler scheduler' : Scheduler ι F C}

theorem Plan.At.mono {q : Plan alg kwargs Resolves} {l : Submitting V α} {parameters : Json F}
    (hruns : ∀ run ∈ scheduler.runs, run ∈ scheduler'.runs) (h : q.At scheduler l parameters) :
    q.At scheduler' l parameters := by
  obtain ⟨before, hsplit, hsubmitted⟩ := h.payloads
  exact ⟨h.args, h.commonTag, h.prepared, before, hsplit, hsubmitted.imp fun _ _ => .mono hruns⟩

/-- What an invocation follows, it follows when there are more runs. -/
theorem Phase.Follows.mono {q : Option (Plan alg kwargs Resolves)} {phase : Phase ι F C V α R}
    (hruns : ∀ run ∈ scheduler.runs, run ∈ scheduler'.runs) (h : phase.Follows scheduler q) :
    phase.Follows scheduler' q := by
  cases phase with
  | resolving kwargs' => exact h
  | running args => exact h
  | lookingUp l parameters =>
    obtain ⟨q', hq, hat⟩ := h
    exact ⟨q', hq, hat.mono hruns⟩
  | describing l parameters described requestId remaining =>
    obtain ⟨⟨q', hq, hat⟩, hdescribed, hremaining⟩ := h
    refine ⟨⟨q', hq, hat.mono hruns⟩,
      fun run hrun => RemoteAlgorithm.under_mono hruns (hdescribed run hrun), fun id hid => ?_⟩
    obtain ⟨run, hrun, hspec⟩ := hremaining id hid
    exact ⟨run, RemoteAlgorithm.under_mono hruns hrun, hspec⟩
  | creating l request =>
    obtain ⟨q', hq, parameters, hat, hrequest⟩ := h
    exact ⟨q', hq, parameters, hat.mono hruns, hrequest⟩
  | done submission result =>
    cases submission with
    | none => exact h
    | some submission =>
      obtain ⟨q', hq, hsubmitted⟩ := h
      exact ⟨q', hq, hsubmitted.imp fun _ _ => .mono hruns⟩

theorem Phase.FollowsFrom.le {q : Option (Plan alg kwargs Resolves)} {n m : Nat}
    {phase : Phase ι F C V α R} (h : phase.FollowsFrom scheduler q n) (hle : m ≤ n) :
    phase.FollowsFrom scheduler q m :=
  ⟨h.1, fun _ hmem => hle.trans (h.2 _ hmem)⟩

theorem Phase.followsFrom_failed (q : Option (Plan alg kwargs Resolves)) (n : Nat) (e : PyExc) :
    (Phase.failed e : Phase ι F C V α R).FollowsFrom scheduler q n :=
  ⟨trivial, by simp [Phase.failed, Phase.position?]⟩

namespace Plan

variable {q : Plan alg kwargs Resolves} {l : Submitting V α} {parameters : Json F}

theorem At.create_follows (h : q.At scheduler l parameters) :
    (alg.create l parameters : Phase ι F C V α R).FollowsFrom scheduler (some q)
      l.requestIds.length := by
  unfold RemoteAlgorithm.create
  cases hrequest : alg.request l parameters with
  | error e => exact Phase.followsFrom_failed _ _ e
  | ok request => exact ⟨⟨q, rfl, parameters, h, hrequest⟩, by simp [Phase.position?]⟩

theorem submit_follows (q : Plan alg kwargs Resolves) {before rest : List α}
    {requestIds : List String} (hsplit : q.payloads = before ++ rest)
    (hsubmitted : before.Forall₂ (q.SubmittedAs scheduler) requestIds) :
    (alg.submit q.args q.commonTag requestIds rest : Phase ι F C V α R).FollowsFrom scheduler
      (some q) requestIds.length := by
  cases rest with
  | nil =>
    rw [List.append_nil] at hsplit
    exact ⟨⟨q, rfl, hsplit ▸ hsubmitted⟩, by simp [RemoteAlgorithm.submit, Phase.position?]⟩
  | cons payload rest =>
    rw [RemoteAlgorithm.submit]
    cases hprepare : alg.prepare q.args q.commonTag payload with
    | error e => exact Phase.followsFrom_failed _ _ e
    | ok prepared =>
      obtain ⟨tag, parameters⟩ := prepared
      have hat : q.At scheduler ⟨q.args, q.commonTag, requestIds, payload, tag, rest⟩ parameters :=
        ⟨rfl, rfl, hprepare, before, hsplit, hsubmitted⟩
      cases hforce : alg.forceRun with
      | true => exact hat.create_follows
      | false => exact ⟨⟨q, rfl, hat⟩, by simp [Phase.position?]⟩

/-- The payload is submitted as a run under its tag. -/
theorem At.next_follows (h : q.At scheduler l parameters) {run : RemoteRun ι F C}
    (hrun : run ∈ scheduler.under alg.remoteName l.tag) :
    (alg.next l run.id : Phase ι F C V α R).FollowsFrom scheduler (some q)
      (l.requestIds.length + 1) := by
  obtain ⟨before, hsplit, hsubmitted⟩ := h.payloads
  obtain ⟨hmem, hunder⟩ := mem_under.mp hrun
  have hthis : q.SubmittedAs scheduler l.payload run.id :=
    ⟨l.tag, payloadTag_of_prepare h.prepared, run, hmem, rfl, hunder⟩
  have hall : q.payloads = (before ++ [l.payload]) ++ l.rest := by
    rw [hsplit, List.append_assoc, List.singleton_append]
  have hnext := submit_follows q hall (List.rel_append hsubmitted (.cons hthis .nil))
  rw [List.length_append, List.length_singleton] at hnext
  rw [RemoteAlgorithm.next, h.args, h.commonTag]
  exact hnext

theorem At.describe_follows (h : q.At scheduler l parameters)
    {described : List (Option (RemoteRun ι F C))} {remaining : List String}
    (hdescribed : ∀ run, some run ∈ described → run ∈ scheduler.under alg.remoteName l.tag)
    (hremaining : ∀ id ∈ remaining, ∃ run ∈ scheduler.under alg.remoteName l.tag, run.id = id) :
    (alg.describe l parameters described remaining : Phase ι F C V α R).FollowsFrom scheduler
      (some q) l.requestIds.length := by
  refine describe_rule (Phase.followsFrom_failed _ _) ?_ ?_ ?_
  · intro requestId rest hcons
    exact ⟨⟨⟨q, rfl, h⟩, hdescribed, hcons ▸ hremaining⟩, by simp [Phase.position?]⟩
  · intro run hrun
    exact (h.next_follows (hdescribed run hrun)).le (Nat.le_succ _)
  · intro _ _
    exact h.create_follows

/-- What is requested at a payload. -/
theorem At.carries (h : q.At scheduler l parameters) {request : RunRequest F C}
    (hrequest : alg.request l parameters = .ok request) :
    q.Carries l.requestIds.length request ∧ request.tag = l.tag := by
  obtain ⟨config, -, hrequest⟩ := bind_eq_ok.mp hrequest
  obtain ⟨parentRequest, -, hrequest⟩ := bind_eq_ok.mp hrequest
  cases hrequest
  obtain ⟨before, hsplit, hsubmitted⟩ := h.payloads
  refine ⟨⟨rfl, l.payload, ?_, h.prepared⟩, rfl⟩
  rw [hsplit, ← hsubmitted.length_eq, List.getElem?_append_right le_rfl, Nat.sub_self]
  rfl

end Plan

theorem afterResolve_follows (q : Option (Plan alg kwargs Resolves)) {results : RunArgs V}
    (h : ∀ args, (afterResolve kwargs results : Phase ι F C V α R) = .running args →
      ∃ results, Resolves results ∧ measuredArgs kwargs results = .ok args) :
    (afterResolve kwargs results : Phase ι F C V α R).FollowsFrom scheduler q 0 := by
  unfold afterResolve at h ⊢
  cases hargs : measuredArgs kwargs results with
  | error e => exact Phase.followsFrom_failed _ _ e
  | ok args =>
    rw [hargs] at h
    exact ⟨h args rfl, by simp⟩

/-- The invocation gets to know its payloads. -/
theorem afterRun_follows (scheduler : Scheduler ι F C) {args : RunArgs V}
    (hargs : ∃ results, Resolves results ∧ measuredArgs kwargs results = .ok args) :
    ∃ q : Option (Plan alg kwargs Resolves),
      (alg.afterRun args : Phase ι F C V α R).FollowsFrom scheduler q 0 := by
  obtain ⟨results, hresolves, hresults⟩ := hargs
  unfold RemoteAlgorithm.afterRun
  cases hcore : alg.coreRun args with
  | error e => exact ⟨none, Phase.followsFrom_failed _ _ e⟩
  | ok payloads =>
    cases htag : alg.generateTag args with
    | error e => exact ⟨none, Phase.followsFrom_failed _ _ e⟩
    | ok commonTag =>
      let q : Plan alg kwargs Resolves :=
        ⟨results, args, payloads, commonTag, hresolves, hresults, hcore, htag⟩
      have hsplit : q.payloads = [] ++ payloads := rfl
      exact ⟨some q, Plan.submit_follows q hsplit .nil⟩

end Plan

/-! ### Every interleaving -/

section Steps

variable {ι F C V α R : Type}

/-- How many runs an invocation may have created for the payload with the index `k`: `most` if it
has left the payload, `current` if it is creating a run for it. -/
def Phase.mayHave (most current k : Nat) : Phase ι F C V α R → Nat
  | .resolving _ | .running _ => 0
  | .lookingUp l _ | .describing l _ _ _ _ => if k < l.requestIds.length then most else 0
  | .creating l _ =>
    if k < l.requestIds.length then most else if k = l.requestIds.length then current else 0
  | .done _ _ => most

theorem Phase.mayHave_le {phase : Phase ι F C V α R} {most current : Nat} (h : current ≤ most)
    (k : Nat) : phase.mayHave most current k ≤ most := by
  have hite {c : Prop} [Decidable c] {n : Nat} (hn : n ≤ most) :
      (if c then most else n) ≤ most := by
    split
    · exact le_rfl
    · exact hn
  cases phase with
  | resolving kwargs => exact Nat.zero_le most
  | running args => exact Nat.zero_le most
  | lookingUp l parameters => exact hite (Nat.zero_le most)
  | describing l parameters described requestId remaining => exact hite (Nat.zero_le most)
  | creating l request =>
    refine hite ?_
    split
    · exact h
    · exact Nat.zero_le most
  | done submission result => exact le_rfl

/-- The payloads before `n` are left. -/
theorem Phase.le_mayHave {phase : Phase ι F C V α R} {n : Nat} (h : ∀ m ∈ phase.position?, n ≤ m)
    (most current k : Nat) : (if k < n then most else 0) ≤ phase.mayHave most current k := by
  split
  · next hk =>
    have hleft {m : Nat} (hm : m ∈ phase.position?) : k < m := hk.trans_le (h m hm)
    cases phase with
    | resolving kwargs => exact absurd (hleft rfl) (Nat.not_lt_zero k)
    | running args => exact absurd (hleft rfl) (Nat.not_lt_zero k)
    | lookingUp l parameters => exact (if_pos (hleft rfl)).ge
    | describing l parameters described requestId remaining => exact (if_pos (hleft rfl)).ge
    | creating l request => exact (if_pos (hleft rfl)).ge
    | done submission result => exact le_rfl
  · exact Nat.zero_le _

variable [DecidableEq ι] {algs : ι → RemoteAlgorithm F C V α R} {kwargs : ι → RunArgs V}
  {Resolves : ι → RunArgs V → Prop}

/-- The number of runs that the invocation has created for the payload with the index. -/
def Scheduler.createdFor (scheduler : Scheduler ι F C) (i : ι) (k : Nat) : Nat :=
  scheduler.runs.countP fun run => run.origin = some (i, k)

/-- The invocations follow the plans, and have created the runs of payloads that they have come to,
at most `most` for a payload.  `current` bounds those for the payload that one is at. -/
structure FollowsPlans (most : Nat) (plans : ∀ i, Option (Plan (algs i) (kwargs i) (Resolves i)))
    (s : Submissions ι F C V α R) (current : ι → Nat) : Prop where
  phases : ∀ i, (s.phases i).Follows s.scheduler (plans i)
  carried : ∀ run ∈ s.scheduler.runs, ∀ i k, run.origin = some (i, k) →
    ∃ q ∈ plans i, q.Carries k run.toRunRequest
  created : ∀ i k, s.scheduler.createdFor i k ≤ (s.phases i).mayHave most (current i) k

theorem createdFor_append {scheduler scheduler' : Scheduler ι F C} {run : RemoteRun ι F C}
    {i : ι} {k : Nat} (hruns : scheduler'.runs = scheduler.runs ++ [run])
    (horigin : run.origin = some (i, k)) (j : ι) (m : Nat) :
    scheduler'.createdFor j m =
      scheduler.createdFor j m + if (i, k) = (j, m) then 1 else 0 := by
  unfold Scheduler.createdFor
  rw [hruns, List.countP_append, List.countP_singleton, horigin]
  simp only [Option.some.injEq, decide_eq_true_eq]

theorem createdFor_started {existing : Scheduler ι F C}
    (hexisting : ∀ run ∈ existing.runs, run.origin = none) (i : ι) (k : Nat) :
    existing.createdFor i k = 0 :=
  List.countP_eq_zero.mpr fun run hrun => by simp [hexisting run hrun]

theorem followsPlans_started {existing : Scheduler ι F C}
    (hexisting : ∀ run ∈ existing.runs, run.origin = none) (most : Nat) (current : ι → Nat) :
    FollowsPlans most (fun i => (none : Option (Plan (algs i) (kwargs i) (Resolves i))))
      (started existing kwargs) current where
  phases _ := rfl
  carried run hrun i k h := by
    rw [hexisting run hrun] at h
    cases h
  created i k := (createdFor_started hexisting i k).le

variable {plans : ∀ i, Option (Plan (algs i) (kwargs i) (Resolves i))}
  {s : Submissions ι F C V α R} {i : ι} {most : Nat} {current current' : ι → Nat}

theorem FollowsPlans.distinct (h : FollowsPlans 1 plans s fun _ => 0) :
    (s.scheduler.runs.filterMap RemoteRun.origin).Nodup := by
  refine List.nodup_iff_count_le_one.mpr fun ⟨i, k⟩ => ?_
  calc
    (s.scheduler.runs.filterMap RemoteRun.origin).count (i, k) = s.scheduler.createdFor i k := by
      rw [List.count_filterMap, Scheduler.createdFor]
      exact List.countP_congr fun run _ => by simp
    _ ≤ (s.phases i).mayHave 1 0 k := h.created i k
    _ ≤ 1 := Phase.mayHave_le (Nat.zero_le 1) k

/-- An invocation moves on in its plan. -/
theorem FollowsPlans.update (h : FollowsPlans most plans s current) {phase : Phase ι F C V α R}
    (hphase : phase.Follows s.scheduler (plans i))
    (hmore : ∀ k, (s.phases i).mayHave most (current i) k ≤ phase.mayHave most (current' i) k)
    (hcurrent : ∀ j ≠ i, current' j = current j) :
    FollowsPlans most plans ⟨s.scheduler, Function.update s.phases i phase⟩ current' where
  phases j := by
    show (Function.update s.phases i phase j).Follows s.scheduler (plans j)
    by_cases hj : j = i
    · subst hj
      rw [Function.update_self]
      exact hphase
    · rw [Function.update_of_ne hj]
      exact h.phases j
  carried := h.carried
  created j k := by
    show s.scheduler.createdFor j k ≤
      (Function.update s.phases i phase j).mayHave most (current' j) k
    by_cases hj : j = i
    · subst hj
      rw [Function.update_self]
      exact (h.created j k).trans (hmore k)
    · rw [Function.update_of_ne hj, hcurrent j hj]
      exact h.created j k

/-- An invocation creates a run of its payload. -/
theorem FollowsPlans.create (h : FollowsPlans most plans s current) {scheduler : Scheduler ι F C}
    {run : RemoteRun ι F C} {k : Nat} {phase : Phase ι F C V α R}
    (hruns : scheduler.runs = s.scheduler.runs ++ [run]) (horigin : run.origin = some (i, k))
    (hcarried : ∃ q ∈ plans i, q.Carries k run.toRunRequest)
    (hphase : phase.Follows scheduler (plans i))
    (hmore : ∀ m, (s.phases i).mayHave most (current i) m + (if k = m then 1 else 0) ≤
      phase.mayHave most (current' i) m)
    (hcurrent : ∀ j ≠ i, current' j = current j) :
    FollowsPlans most plans ⟨scheduler, Function.update s.phases i phase⟩ current' where
  phases j := by
    show (Function.update s.phases i phase j).Follows scheduler (plans j)
    by_cases hj : j = i
    · subst hj
      rw [Function.update_self]
      exact hphase
    · rw [Function.update_of_ne hj]
      exact (h.phases j).mono fun run hrun => hruns ▸ List.mem_append_left _ hrun
  carried run' hrun' j m hj := by
    rw [hruns, List.mem_append, List.mem_singleton] at hrun'
    rcases hrun' with hrun' | rfl
    · exact h.carried run' hrun' j m hj
    · cases horigin.symm.trans hj
      exact hcarried
  created j m := by
    show scheduler.createdFor j m ≤ (Function.update s.phases i phase j).mayHave most (current' j) m
    rw [createdFor_append hruns horigin]
    by_cases hj : j = i
    · subst hj
      rw [Function.update_self]
      simp only [Prod.mk.injEq, true_and]
      exact (Nat.add_le_add_right (h.created j m) _).trans (hmore m)
    · rw [Function.update_of_ne hj, hcurrent j hj, if_neg fun heq => hj (Prod.mk.inj heq).1.symm]
      exact h.created j m

/-- An invocation that has created no run, and is not bound to a plan, gets one. -/
theorem FollowsPlans.replan (h : FollowsPlans most plans s current)
    (hnone : ∀ run ∈ s.scheduler.runs, ∀ k, run.origin ≠ some (i, k))
    (q : Option (Plan (algs i) (kwargs i) (Resolves i)))
    (hfree : (s.phases i).Follows s.scheduler q) :
    FollowsPlans most (Function.update plans i q) s current where
  phases j := by
    by_cases hj : j = i
    · subst hj
      rw [Function.update_self]
      exact hfree
    · rw [Function.update_of_ne hj]
      exact h.phases j
  carried run hrun j k horigin := by
    have hj : j ≠ i := by
      rintro rfl
      exact hnone run hrun k horigin
    rw [Function.update_of_ne hj]
    exact h.carried run hrun j k horigin
  created := h.created

/-- The step of an invocation, after which it follows a plan again. -/
theorem FollowsPlans.transition (h : FollowsPlans most plans s current) (hmost : current i < most)
    {scheduler : Scheduler ι F C} {phase : Phase ι F C V α R}
    (htransition : Transition (algs i) i s.scheduler (s.phases i) scheduler phase)
    (hresolves : ∀ args, s.phases i = .resolving (kwargs i) → phase = .running args →
      ∃ results, Resolves i results ∧ measuredArgs (kwargs i) results = .ok args)
    (hcurrent : ∀ j ≠ i, current' j = current j) :
    ∃ plans' : ∀ i, Option (Plan (algs i) (kwargs i) (Resolves i)),
      FollowsPlans most plans' ⟨scheduler, Function.update s.phases i phase⟩ current' := by
  have hfollows := h.phases i
  have hcreated := h.created i
  -- an invocation that creates nothing leaves the payloads before `n`
  have hforward {n : Nat} (hphase : phase.FollowsFrom s.scheduler (plans i) n)
      (hleft : ∀ k, (s.phases i).mayHave most (current i) k ≤ if k < n then most else 0) :
      FollowsPlans most plans ⟨s.scheduler, Function.update s.phases i phase⟩ current' :=
    h.update hphase.1 (fun k => (hleft k).trans (Phase.le_mayHave hphase.2 ..)) hcurrent
  generalize hbefore : s.phases i = before at htransition hresolves hfollows hcreated hforward
  cases htransition with
  | resolved kwargs' results =>
    obtain rfl : kwargs' = kwargs i := hfollows
    exact ⟨plans, hforward (afterResolve_follows (plans i) fun args => hresolves args rfl)
      fun k => Nat.zero_le _⟩
  | ran args =>
    obtain ⟨q, hphase, hpos⟩ := afterRun_follows s.scheduler hfollows
    have hnone : ∀ run ∈ s.scheduler.runs, ∀ k, run.origin ≠ some (i, k) := by
      intro run hrun k horigin
      exact absurd (List.countP_pos_iff.mpr ⟨run, hrun, by simpa using horigin⟩)
        (Nat.not_lt.mpr (hcreated k))
    have hplanned := h.replan hnone q (by rw [hbefore]; exact hfollows)
    refine ⟨_, hplanned.update (by rw [Function.update_self]; exact hphase) (fun k => ?_) hcurrent⟩
    rw [hbefore]
    exact Nat.zero_le _
  | listed l parameters ids hids =>
    obtain ⟨q, hq, hat⟩ := hfollows
    have hnone (run : RemoteRun ι F C) (hrun : some run ∈ ([] : List (Option (RemoteRun ι F C)))) :
        run ∈ s.scheduler.under (algs i).remoteName l.tag := by
      cases hrun
    exact ⟨plans, hforward (hq ▸ hat.describe_follows hnone fun id hid =>
      List.mem_map.mp (hids.mem_iff.mp hid)) fun k => le_rfl⟩
  | described l parameters described requestId remaining run hrun =>
    obtain ⟨⟨q, hq, hat⟩, hdescribed, hremaining⟩ := hfollows
    have hall : ∀ run', some run' ∈ described ++ [run] →
        run' ∈ s.scheduler.under (algs i).remoteName l.tag := by
      intro run' hrun'
      rcases List.mem_append.mp hrun' with hrun' | hlast
      · exact hdescribed run' hrun'
      · obtain rfl := List.mem_singleton.mp hlast
        obtain ⟨hmem, hid⟩ := find?_spec (hrun run' rfl)
        obtain ⟨run, hunder, hid'⟩ := hremaining requestId List.mem_cons_self
        rw [eq_of_id hmem (mem_under.mp hunder).1 (hid.trans hid'.symm)]
        exact hunder
    exact ⟨plans, hforward (hq ▸ hat.describe_follows hall fun id hid =>
      hremaining id (List.mem_cons_of_mem requestId hid)) fun k => le_rfl⟩
  | created l request id receivedAt _ hcreate _ hphase =>
    obtain ⟨q, hq, parameters, hat, hrequest⟩ := hfollows
    have hruns := runs_create hcreate
    obtain ⟨hcarries, htag⟩ := hat.carries hrequest
    have hmono : ∀ run ∈ s.scheduler.runs, run ∈ scheduler.runs :=
      fun run hrun => hruns ▸ List.mem_append_left _ hrun
    have hnew : (⟨request, id, receivedAt, some (i, l.requestIds.length)⟩ : RemoteRun ι F C) ∈
        scheduler.under (algs i).remoteName l.tag :=
      mem_under.mpr ⟨hruns ▸ List.mem_append_right _ (List.mem_singleton_self _), hcarries.1, htag⟩
    have hnext : phase.FollowsFrom scheduler (plans i) (l.requestIds.length + 1) := by
      rcases hphase with rfl | ⟨e, rfl⟩
      · exact hq ▸ (hat.mono hmono).next_follows hnew
      · exact Phase.followsFrom_failed _ _ e
    refine ⟨plans, h.create hruns rfl ⟨q, hq, hcarries⟩ hnext.1 (fun m => ?_) hcurrent⟩
    refine le_trans ?_ (Phase.le_mayHave hnext.2 most (current' i) m)
    rw [hbefore, Phase.mayHave]
    rcases Nat.lt_trichotomy m l.requestIds.length with hm | rfl | hm
    · rw [if_pos hm, if_neg hm.ne', if_pos (hm.trans (Nat.lt_succ_self _)), Nat.add_zero]
    · rw [if_neg (lt_irrefl _), if_pos rfl, if_pos rfl, if_pos (Nat.lt_succ_self _)]
      exact hmost
    · rw [if_neg hm.not_gt, if_neg hm.ne', if_neg hm.ne]
      exact Nat.zero_le _
  | raised _ e =>
    refine ⟨plans, h.update trivial (fun k => ?_) hcurrent⟩
    exact Phase.mayHave_le hmost.le k

omit [DecidableEq ι] in
/-- An answer that lets the invocation go on to `_run` is one of the input cache. -/
theorem resolves_of_resume {i : ι} {alg : RemoteAlgorithm F C V α R} {args kwargs : RunArgs V}
    {scheduler scheduler' : Scheduler ι F C} {answer : Answer V}
    (h : alg.resume i scheduler (.resolving kwargs) answer = some (scheduler', .running args)) :
    ∃ results, answer = .resolves results ∧ measuredArgs kwargs results = .ok args := by
  cases answer with
  | resolves results =>
    obtain ⟨-, hphase⟩ := Prod.mk.inj (Option.some.inj h)
    unfold afterResolve at hphase
    split at hphase
    · cases hphase
    · next hargs =>
      cases hphase
      exact ⟨results, rfl, hargs⟩
  | _ => cases h

/-- An answer that the invocation can get. -/
theorem FollowsPlans.resume (h : FollowsPlans most plans s current) (hmost : current i < most)
    {answer : Answer V} (hanswer : ∀ results, answer = .resolves results → Resolves i results)
    {scheduler : Scheduler ι F C} {phase : Phase ι F C V α R}
    (hresume : (algs i).resume i s.scheduler (s.phases i) answer = some (scheduler, phase))
    (hcurrent : ∀ j ≠ i, current' j = current j) :
    ∃ plans' : ∀ i, Option (Plan (algs i) (kwargs i) (Resolves i)),
      FollowsPlans most plans' ⟨scheduler, Function.update s.phases i phase⟩ current' := by
  refine h.transition hmost (transition_of_resume hresume) (fun args hbefore hphase => ?_) hcurrent
  rw [hbefore, hphase] at hresume
  obtain ⟨results, hresults, hargs⟩ := resolves_of_resume hresume
  exact ⟨results, hanswer results hresults, hargs⟩

theorem FollowsPlans.step (h : FollowsPlans 1 plans s fun _ => 0) (move : ι × Answer V)
    (hmove : ∀ results, move.2 = .resolves results → Resolves move.1 results) :
    ∃ plans' : ∀ i, Option (Plan (algs i) (kwargs i) (Resolves i)),
      FollowsPlans 1 plans' (s.step algs move) fun _ => 0 := by
  unfold Submissions.step
  split
  · exact ⟨plans, h⟩
  · next hresume => exact h.resume Nat.zero_lt_one hmove hresume fun _ _ => rfl

/-- In every run, the invocations have created their runs by plans. -/
theorem exists_followsPlans {existing : Scheduler ι F C}
    (hexisting : ∀ run ∈ existing.runs, run.origin = none) {σ : List (ι × Answer V)}
    (hσ : ∀ i results, (i, .resolves results) ∈ σ → Resolves i results) :
    ∃ plans : ∀ i, Option (Plan (algs i) (kwargs i) (Resolves i)),
      FollowsPlans 1 plans (run (Submissions.step algs) (started existing kwargs) σ)
        fun _ => 0 := by
  refine run_induction
    (C := fun _ move => ∀ results, move.2 = .resolves results → Resolves move.1 results)
    (I := fun s => ∃ plans : ∀ i, Option (Plan (algs i) (kwargs i) (Resolves i)),
      FollowsPlans 1 plans s fun _ => 0)
    (fun _ move ⟨_, h⟩ hmove => h.step move hmove) ⟨_, followsPlans_started hexisting 1 _⟩
    (along_iff.mpr fun before move after hsplit results hanswer => hσ _ _ ?_)
  rw [hsplit, ← hanswer]
  exact List.mem_append_right _ List.mem_cons_self

end Steps

/-! ### The process of a run -/

section Process

variable {F C V α R O X S : Type} {J : JsonModule F} {alg : RemoteAlgorithm F C V α R}
  {app : Core.Application α O X S} {T : JsonPayloadType J α}

/-- An algorithm and the process of its runs, in what they must agree on for the payloads.  One that
is not compressed must not look like an envelope. -/
structure Agree (J : JsonModule F) (alg : RemoteAlgorithm F C V α R)
    (app : Core.Application α O X S) (T : JsonPayloadType J α) : Prop where
  toJson : ∀ p, alg.toJson p = T.toJson p
  fromJson : ∀ p, T.fromJson (.str (T.toJson p)) = .ok p
  deserialize : ∀ s v, J.loads (.str s) = .ok v → alg.deserialize s.toUTF8 = .ok v
  envelopes : ParsesEnvelopes J app.modules
  plain : alg.compressPayload = false →
    ∀ p v, J.loads (.str (T.toJson p)) = .ok v → hasEnvelopeKeys v = false
  compressed : alg.compressPayload = true → ∀ compressor ∈ alg.compressor,
    ∃ decompress, app.modules.locate compressor.decompressorImportPath = .ok (some decompress) ∧
      ∀ b c, compressor.compress b = .ok c → decompress c = .ok (.bytes b)
  prepares : ∃ prepared, app.prepare = .ok prepared ∧ prepared.bootstrapPayloadType = none
  payloadType :
    app.loadPayloadType app.startModel.runtime.payload.typeName = .ok T.toPayloadType
  resolves : ∀ p, ∃ resolved, app.resolveAlgorithm p = .ok resolved

/-- `bootstrap`, on the body of the run's payload URI, binds the payload for the services. -/
def BindsPayload (app : Core.Application α O X S) (body : ByteArray) (p : α) : Prop :=
  ∃ prepared reader resolved model, reader.readExc = none ∧
    app.bootstrap (.ok body) = app.bindServices prepared resolved model p reader

/-- The parameters of a payload restore it. -/
theorem Agree.restores (h : Agree J alg app T) {args : RunArgs V} {commonTag tag : String} {p : α}
    {parameters : Json F} (hprepare : alg.prepare args commonTag p = .ok (tag, parameters))
    (saveContent : Bool) :
    Restores J app.modules T.toPayloadType saveContent parameters p := by
  obtain ⟨tag', -, hprepare⟩ := bind_eq_ok.mp hprepare
  obtain ⟨-, -, hprepare⟩ := bind_eq_ok.mp hprepare
  obtain ⟨parameters', hparameters, hprepare⟩ := bind_eq_ok.mp hprepare
  cases hprepare
  rw [h.toJson, algorithmParameters] at hparameters
  cases hcompress : alg.compressPayload with
  | false =>
    rw [hcompress, if_neg Bool.false_ne_true] at hparameters
    obtain ⟨v, hloads⟩ := T.loads_of_fromJson (h.fromJson p)
    rw [h.deserialize _ v hloads] at hparameters
    obtain rfl := Except.ok.inj hparameters
    exact restores_plain h.envelopes saveContent (h.fromJson p) hloads
      (h.plain hcompress p v hloads)
  | true =>
    rw [hcompress, if_pos rfl] at hparameters
    cases hcompressor : alg.compressor with
    | none =>
      rw [hcompressor] at hparameters
      cases hparameters
    | some compressor =>
      rw [hcompressor, compressRemotePayload] at hparameters
      obtain ⟨compressed, hcompressed, hparameters⟩ := bind_eq_ok.mp hparameters
      obtain rfl := Except.ok.inj hparameters
      obtain ⟨decompress, hlocate, hinverse⟩ := h.compressed hcompress compressor hcompressor
      exact restores_compressed h.envelopes saveContent (h.fromJson p)
        (hinverse _ _ hcompressed) hlocate

theorem Agree.bindsPayload (h : Agree J alg app T) {parameters : Json F} {p : α}
    (hrestores : ∀ saveContent,
      Restores J app.modules T.toPayloadType saveContent parameters p) :
    BindsPayload app (J.dumps parameters).toUTF8 p := by
  obtain ⟨prepared, hprepare, htype⟩ := h.prepares
  obtain ⟨resolved, hresolved⟩ := h.resolves p
  obtain ⟨reader, hreader, hpayload, hexc⟩ :=
    hrestores (app.startModel.runtime.payload.serializationMode != "off")
  have hread : app.readPayload prepared (.ok (J.dumps parameters).toUTF8) =
      .ok (some p, reader) := by
    rw [Core.Application.readPayload, htype]
    simp only [h.payloadType, Core.Application.getPayload, bind, Except.bind, hreader, hpayload]
    rfl
  have hbinds : app.Binds (.ok (J.dumps parameters).toUTF8) prepared p reader resolved
      app.startModel p :=
    ⟨hprepare, Core.Application.parsedPayload_of_read hread hexc, hresolved, by
      rw [Core.Application.runtimePayload, htype]⟩
  exact ⟨prepared, reader, resolved, app.startModel, hexc, hbinds.bootstrap_eq⟩

/-- The process of a run that was created by a plan binds the payload of the plan. -/
theorem FollowsPlans.bindsPayload {ι : Type} [DecidableEq ι] {algs : ι → RemoteAlgorithm F C V α R}
    {kwargs : ι → RunArgs V} {Resolves : ι → RunArgs V → Prop}
    {plans : ∀ i, Option (Plan (algs i) (kwargs i) (Resolves i))} {s : Submissions ι F C V α R}
    {most : Nat} {current : ι → Nat} (h : FollowsPlans most plans s current)
    (apps : String → Core.Application α O X S) (T : String → JsonPayloadType J α)
    {run : RemoteRun ι F C} {i : ι} {k : Nat} (hrun : run ∈ s.scheduler.runs)
    (horigin : run.origin = some (i, k))
    (hagree : Agree J (algs i) (apps (algs i).remoteName) (T (algs i).remoteName)) :
    ∃ q ∈ plans i, ∃ p, q.payloads[k]? = some p ∧
      (algs i).payloadTag q.args q.commonTag p = .ok run.tag ∧
      BindsPayload (apps run.algorithmName) (J.dumps run.algorithmParameters).toUTF8 p := by
  obtain ⟨q, hq, hname, p, hp, hprepare⟩ := h.carried run hrun i k horigin
  refine ⟨q, hq, p, hp, payloadTag_of_prepare hprepare, ?_⟩
  rw [hname]
  exact hagree.bindsPayload (hagree.restores hprepare)

end Process

/-- In every interleaving of invocations, whatever the scheduler answers, an invocation creates at
most one run for a payload, and the process of every run that was created binds its payload. -/
theorem created_runs_bind_payloads {ι F C V α R O X S : Type} [DecidableEq ι] (J : JsonModule F)
    (algs : ι → RemoteAlgorithm F C V α R) (apps : String → Core.Application α O X S)
    (T : String → JsonPayloadType J α)
    (hagree : ∀ i, Agree J (algs i) (apps (algs i).remoteName) (T (algs i).remoteName))
    (existing : Scheduler ι F C) (hexisting : ∀ run ∈ existing.runs, run.origin = none)
    (kwargs : ι → RunArgs V) (σ : List (ι × Answer V)) :
    let runs := (run (Submissions.step algs) (started existing kwargs) σ).scheduler.runs
    (runs.filterMap RemoteRun.origin).Nodup ∧
      ∃ plans : ∀ i, Option (Plan (algs i) (kwargs i) fun results => (i, .resolves results) ∈ σ),
        ∀ run ∈ runs, ∀ i k, run.origin = some (i, k) →
          ∃ q ∈ plans i, ∃ p, q.payloads[k]? = some p ∧
            (algs i).payloadTag q.args q.commonTag p = .ok run.tag ∧
            BindsPayload (apps run.algorithmName) (J.dumps run.algorithmParameters).toUTF8 p := by
  intro runs
  obtain ⟨plans, hplans⟩ : ∃ plans : ∀ i,
      Option (Plan (algs i) (kwargs i) fun results => (i, .resolves results) ∈ σ),
      FollowsPlans 1 plans (run (Submissions.step algs) (started existing kwargs) σ) fun _ => 0 :=
    exists_followsPlans hexisting fun _ _ h => h
  exact ⟨hplans.distinct, plans, fun run hrun i k horigin =>
    hplans.bindsPayload apps T hrun horigin (hagree i)⟩

/-! ### The forecasts -/

/-- Nothing fails in the processes of the forecasts. -/
def forecastServices : Core.Services Int Nat Unit Nat where
  loadStores _ := .ok ()
  withFormat _ := .ok ()
  installModule _ := .ok ()
  sockets _ := .ok ()
  algorithmAlias _ := .ok "forecast"
  forStoragePath _ _ := .ok ()
  trinoClient _ _ := .ok ()
  mlflowClient _ _ := .ok ()
  getClient _ _ _ := .ok ()
  bindClient _ := .ok ()
  callFunction _ _ _ := .ok ()
  loggerFactory _ := .ok ()
  metricsProvider _ _ := .ok ()
  telemetryRecorder _ := .ok ()
  payloadRecorder := .ok ()
  asyncClients _ := .ok ()
  customConfiguration _ _ := .ok ()

def forecastApplication : Core.Application Int Nat Unit Nat where
  imports := Core.importsExcept []
  services := forecastServices
  modules := jsonModules
  sasUri := "http://mock.uri/payload.json"
  config :=
    { default := Core.sampleSettings "algorithms.Forecast" ⟨"payloads.Counter", "", "off"⟩
      matchingConfigurations := fun _ => []
      settingsLoader := fun settings _ => settings }
  classAt _ := fatalNexusError
  payloadTypeAt _ := counterType.toPayloadType
  algorithmResolver := none
  configurationModel := none
  trino := false
  mlflow := false
  located := rfl

theorem agree_forecasts : Agree utf8Json forecasts forecastApplication counterType where
  toJson _ := rfl
  fromJson := counterType_fromJson
  deserialize _ _ h := JsonModule.loads_toUTF8 h
  envelopes := parsesEnvelopes_jsonModules
  plain _ p v hv := by
    have hloads := utf8Json.loads_dumps (wf_counter p)
    rw [show counterType.toJson p = utf8Json.dumps _ from rfl, hloads] at hv
    obtain rfl := Except.ok.inj hv
    rfl
  compressed h := by cases h
  prepares := ⟨⟨none, none, none, none⟩, rfl, rfl⟩
  payloadType := rfl
  resolves _ := ⟨_, rfl⟩

theorem created_runs_bind_payloads_forecasts :
    BindsPayload forecastApplication (utf8Json.dumps (forecastParameters 1)).toUTF8 1 := by
  have hexec : run (Submissions.step fun _ => forecasts)
      (started ⟨[], List.nodup_nil⟩ fun _ => Dict.empty)
      (((), .resolves Dict.empty) :: forecastAnswers) = _ := exec_forecasts
  obtain ⟨-, plans, hplans⟩ := created_runs_bind_payloads utf8Json (fun _ : Unit => forecasts)
    (fun _ => forecastApplication) (fun _ => counterType) (fun _ => agree_forecasts)
    ⟨[], List.nodup_nil⟩ (by simp) (fun _ => Dict.empty)
    (((), .resolves Dict.empty) :: forecastAnswers)
  rw [hexec] at hplans
  obtain ⟨q, -, p, hp, -, hbinds⟩ := hplans forecastRun (List.mem_singleton_self _) () 0 rfl
  have hpayloads : [1, 2] = q.payloads := Except.ok.inj q.coreRun_eq
  rw [← hpayloads] at hp
  obtain rfl := Option.some.inj hp
  exact hbinds

end NexusSdk.Algorithms
