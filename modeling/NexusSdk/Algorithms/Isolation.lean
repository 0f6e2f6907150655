import NexusSdk.Algorithms.Collection
import NexusSdk.Cache.Isolation
import Mathlib.Data.Nat.Pairing

/-! What the failures of its siblings do to a remote algorithm.  Its inputs are resolved by callers
that look at every task of the shared cache, and its result is collected in a loop over all runs that
ends with the first cancelled one.  Where neither happens, a remote algorithm whose inputs and whose
own code and calls raise nothing contributes its result. -/

namespace NexusSdk.Algorithms

open Lib

variable {Obj Val F C V α R : Type}

namespace DirectedGraph

section Conditions

variable [DecidableEq Obj] (G : DirectedGraph Obj Val F C V α R) (i : Nat)
  (fork : Fork Obj F C V α R) (s : State Obj Val F C V α R)

/-- The inputs of the remote algorithm, and all that are read for them. -/
def Own : Obj → Prop := Cache.Needs G.inputs fork.inputProcessors

/-- Remote algorithm `i` itself raises nothing in the move: not its code, not its calls of the
scheduler, and not the call of its code with the results of its inputs. -/
def RunsOn : Move V → Prop
  | .fork j answer => j = i → ∀ phase, s.phases i = some phase →
    fork.algorithm.Succeeds s.scheduler phase answer ∧
      ∀ kwargs, phase = .resolving kwargs →
        (∀ x ∈ fork.inputProcessors, s.cache.cache.contains x = true) →
        ∃ args, measuredArgs kwargs (G.toArgs (s.cache.collect G.inputs fork.inputProcessors)) =
          .ok args
  | .spawner _ | .cache _ => True

/-- No failure of others can reach remote algorithm `i` in the move: where a caller for its inputs
still has to look at the tasks of the cache, no input but its own has failed; and where results are
collected, no other run was cancelled. -/
def Undisturbed : Move V → Prop
  | .cache caller => Cache.Undisturbed G.inputs (G.Own fork) s.cache caller
  | .fork j _ => j = i → ∀ call, s.cache.calls[i]? = some call →
    call.state.looks call.args.length = true → s.cache.FailuresIn (G.Own fork)
  | .spawner _ => s.spawner = .waiting → ∀ j, j ≠ i → ∀ submission e,
    s.phases j = some (.done submission (.error e)) → e.isCancelled = false

/-- The inputs of remote algorithm `i` are resolved, and its code gets `args`. -/
def ResolvedWith (args : RunArgs V) : Prop :=
  ∃ call results, s.cache.calls[i]? = some call ∧ call.state = .returned results ∧
    measuredArgs (G.toArgs G.kwargs) (G.toArgs results) = .ok args

/-- Remote algorithm `i` got past the resolution of its inputs, has submitted its payloads, and its
result is among the collected ones. -/
def Contributed : Prop :=
  ∃ args ids commonTag r results, G.ResolvedWith i s args ∧
    s.phases i = some (.done (some (ids, commonTag)) (.ok r)) ∧
    fork.algorithm.Submitted s.scheduler args ids commonTag (.ok r) ∧
    s.spawner = .ended (.ok results) ∧ r ∈ results

/-- What holds if remote algorithm `i` raised nothing and nothing reached it. -/
structure Isolated : Prop where
  unfailed : s.cache.Unfailed (G.Own fork)
  run : ∀ phase, s.phases i = some phase → phase = .resolving (G.toArgs G.kwargs) ∨
    ∃ args, G.ResolvedWith i s args ∧ fork.algorithm.PhaseSound s.scheduler args phase
  collected : ∀ outcome, s.spawner = .ended outcome → ∃ submission r results,
    s.phases i = some (.done submission (.ok r)) ∧ outcome = .ok results ∧ r ∈ results

end Conditions

variable {G : DirectedGraph Obj Val F C V α R} {s s' : State Obj Val F C V α R} {i j : Nat}
  {fork : Fork Obj F C V α R} {args : RunArgs V}

/-! ### Collecting -/

/-- The result of a run that returned. -/
def State.result? (s : State Obj Val F C V α R) (i : Nat) : Option R :=
  match s.phases i with
  | some (.done _ (.ok r)) => some r
  | _ => none

/-- The results of the runs that returned are collected, unless one was cancelled. -/
theorem remoteResults_eq {order : List Nat}
    (h : ∀ j ∈ order, ∀ submission e, s.phases j = some (.done submission (.error e)) →
      e.isCancelled = false) : s.remoteResults order = .ok (order.filterMap s.result?) := by
  induction order with
  | nil => rfl
  | cons j order ih =>
    have hrest := ih fun k hk => h k (List.mem_cons_of_mem j hk)
    rw [State.remoteResults]
    split
    · next submission r hphase =>
      have hresult : s.result? j = some r := by rw [State.result?, hphase]
      rw [hrest, List.filterMap_cons_some hresult]
      rfl
    · next submission e hphase =>
      have hresult : s.result? j = none := by rw [State.result?, hphase]
      rw [hrest, List.filterMap_cons_none hresult,
        if_neg (by simp [h j List.mem_cons_self submission e hphase])]
    · next hok herror =>
      have hresult : s.result? j = none := by
        unfold State.result?
        split
        · next hphase => exact absurd hphase (hok _ _)
        · rfl
      rw [hrest, List.filterMap_cons_none hresult]

/-! ### The moves -/

theorem ResolvedWith.mono (h : G.ResolvedWith i s args)
    (hcalls : ∀ call, s.cache.calls[i]? = some call → call.state.ended = true →
      s'.cache.calls[i]? = some call) : G.ResolvedWith i s' args := by
  obtain ⟨call, results, hcall, hreturned, hargs⟩ := h
  refine ⟨call, results, hcalls call hcall ?_, hreturned, hargs⟩
  rw [hreturned]
  rfl

variable [DecidableEq Obj]

theorem resolvedWith_step (h : G.ResolvedWith i s args) (move : Move V) :
    G.ResolvedWith i (G.step s move) args := by
  refine h.mono fun call hcall hended => ?_
  rw [cache_step]
  exact Cache.State.call_step_ended hcall hended

theorem undisturbed_caller {move : Move V} (h : G.Undisturbed i fork s move) :
    Cache.Undisturbed G.inputs (G.Own fork) s.cache (G.callerOf s move) := by
  cases move with
  | spawner order => trivial
  | fork j answer =>
    obtain ⟨k, hk⟩ := callerOf_fork G s j answer
    rw [hk]
    trivial
  | cache caller =>
    rw [callerOf]
    split
    · trivial
    · exact h

theorem runs_step (move : Move V) :
    ∀ run ∈ s.scheduler.runs, run ∈ (G.step s move).scheduler.runs := by
  cases move with
  | spawner order =>
    show ∀ run ∈ s.scheduler.runs, run ∈ (G.stepSpawner s order).scheduler.runs
    rw [(stepSpawner_frame order).2]
    exact fun _ hrun => hrun
  | cache caller =>
    rw [step]
    split <;> exact fun _ hrun => hrun
  | fork j answer =>
    have hsteps : ForkSteps G s j answer (G.stepFork s j answer) := stepFork_cases
    show ∀ run ∈ s.scheduler.runs, run ∈ (G.stepFork s j answer).scheduler.runs
    generalize G.stepFork s j answer = s' at hsteps ⊢
    cases hsteps with
    | resumed _ _ _ hresume => exact RemoteAlgorithm.runs_of_resume hresume
    | _ => exact fun _ hrun => hrun

/-- A run that resolves its inputs goes on to its code, or waits. -/
theorem resolving_step (hs : G.Coherent s) (h : G.Isolated i fork s)
    (hfork : G.remoteAlgorithms[i]? = some fork)
    (hphase : s.phases i = some (.resolving (G.toArgs G.kwargs))) {move : Move V}
    (hruns : G.RunsOn i fork s move) (hmove : G.Undisturbed i fork s move) :
    (G.step s move).phases i = some (.resolving (G.toArgs G.kwargs)) ∨
      ∃ args, G.ResolvedWith i (G.step s move) args ∧
        (G.step s move).phases i = some (.running args) := by
  cases move with
  | spawner order =>
    left
    exact (phases_stepSpawner_of_started hs.launched order
      ((hs.linked.started i).mpr ⟨_, hphase⟩)).trans hphase
  | cache caller =>
    left
    rw [step]
    split <;> exact hphase
  | fork j answer =>
    have hsteps : ForkSteps G s j answer (G.stepFork s j answer) := stepFork_cases
    show (G.stepFork s j answer).phases i = _ ∨ ∃ args,
      G.ResolvedWith i (G.stepFork s j answer) args ∧ (G.stepFork s j answer).phases i = _
    generalize G.stepFork s j answer = s' at hsteps ⊢
    by_cases hj : j = i
    · subst hj
      cases hsteps with
      | absent _ => exact .inl hphase
      | refused _ _ _ _ => exact .inl hphase
      | waits _ _ _ => exact .inl hphase
      | resumed _ hphase' hresolved _ =>
        obtain rfl := Option.some.inj (hphase.symm.trans hphase')
        exact absurd rfl (hresolved _)
      | @resolved fork' kwargs call phase _ hphase' hcall hended =>
        right
        obtain rfl := Phase.resolving.inj (Option.some.inj (hphase.symm.trans hphase'))
        obtain ⟨st, hst, hpast⟩ := hs.linked.calls j fork hfork
        have hopen : st.ended = false := by
          rw [← Bool.not_eq_true, hpast]
          rintro ⟨phase', hsome, hresolved⟩
          exact hresolved _ (Option.some.inj (hsome.symm.trans hphase))
        obtain ⟨st', hst', hanswer⟩ := Cache.answer_stepCall hs.booked.1 h.unfailed hst hopen
          (hmove rfl _ hst)
        obtain rfl := Option.some.inj (hcall.symm.trans hst')
        have hended' : st'.ended = true := by
          rcases hended with ⟨results, hreturned, -⟩ | ⟨e, hraised, -⟩
          · rw [show st' = .returned results from hreturned]
            rfl
          · rw [show st' = .raised e from hraised]
            rfl
        obtain ⟨hcached, rfl⟩ := hanswer hended'
        obtain ⟨args, hargs⟩ := (hruns rfl _ hphase).2 _ rfl hcached
        refine ⟨args, ⟨_, _, hcall, rfl, hargs⟩, ?_⟩
        rcases hended with ⟨results, hreturned, rfl⟩ | ⟨e, hraised, -⟩
        · obtain rfl := Cache.CallState.returned.inj hreturned
          have hafter : afterResolve (G.toArgs G.kwargs) (G.toArgs (s.cache.collect G.inputs
              fork.inputProcessors)) = (.running args : Phase Nat F C V α R) := by
            rw [afterResolve, hargs]
          exact (Function.update_self ..).trans (congrArg some hafter)
        · cases hraised
    · left
      cases hsteps with
      | resolved _ _ _ _ => exact (Function.update_of_ne (Ne.symm hj) _ _).trans hphase
      | resumed _ _ _ _ => exact (Function.update_of_ne (Ne.symm hj) _ _).trans hphase
      | _ => exact hphase

theorem isolated_run (hs : G.Coherent s) (h : G.Isolated i fork s)
    (hfork : G.remoteAlgorithms[i]? = some fork) {move : Move V}
    (hruns : G.RunsOn i fork s move) (hmove : G.Undisturbed i fork s move)
    {phase : Phase Nat F C V α R} (hphase : (G.step s move).phases i = some phase) :
    phase = .resolving (G.toArgs G.kwargs) ∨ ∃ args, G.ResolvedWith i (G.step s move) args ∧
      fork.algorithm.PhaseSound (G.step s move).scheduler args phase := by
  cases hbefore : s.phases i with
  | none =>
    left
    cases move with
    | spawner order =>
      rcases phases_stepSpawner hs.launched order i with hsame | ⟨-, hnew⟩
      · cases (hbefore.symm.trans hsame.symm).trans hphase
      · exact Option.some.inj (hphase.symm.trans hnew)
    | cache caller =>
      rw [step] at hphase
      split at hphase <;> cases hbefore.symm.trans hphase
    | fork j answer =>
      have hsteps : ForkSteps G s j answer (G.stepFork s j answer) := stepFork_cases
      have hphase' : (G.stepFork s j answer).phases i = some phase := hphase
      generalize G.stepFork s j answer = s' at hsteps hphase'
      have hne {phase : Phase Nat F C V α R} (hj : s.phases j = some phase) : i ≠ j := by
        rintro rfl
        cases hbefore.symm.trans hj
      cases hsteps with
      | resolved _ hj _ _ =>
        cases (hbefore.symm.trans (Function.update_of_ne (hne hj) _ _).symm).trans hphase'
      | resumed _ hj _ _ =>
        cases (hbefore.symm.trans (Function.update_of_ne (hne hj) _ _).symm).trans hphase'
      | _ => cases hbefore.symm.trans hphase'
  | some before =>
    rcases h.run before hbefore with rfl | ⟨args, hresolved, hsound⟩
    · rcases resolving_step hs h hfork hbefore hruns hmove with hsame | ⟨args, hresolved, hnext⟩
      · exact .inl (Option.some.inj (hphase.symm.trans hsame))
      · obtain rfl := Option.some.inj (hphase.symm.trans hnext)
        exact .inr ⟨args, hresolved, rfl⟩
    · right
      have hpast : ∀ kwargs, before ≠ .resolving kwargs := by
        rintro kwargs rfl
        exact hsound
      refine ⟨args, resolvedWith_step hresolved move, ?_⟩
      rcases past_cases hs hfork hbefore hpast move with
        ⟨hsame, -⟩ | ⟨answer, scheduler, phase', rfl, hresume, hscheduler, hnext⟩
      · obtain rfl := Option.some.inj (hphase.symm.trans hsame)
        exact hsound.mono (runs_step move)
      · obtain rfl := Option.some.inj (hphase.symm.trans hnext)
        rw [hscheduler]
        exact RemoteAlgorithm.phaseSound_resume hsound (hruns rfl before hbefore).1 hresume

theorem resume_done {alg : RemoteAlgorithm F C V α R} {submission : Option (List String × String)}
    {result : Except PyExc R} {scheduler : Scheduler Nat F C} {answer : Answer V} :
    alg.resume i scheduler (.done submission result) answer = none := by
  unfold RemoteAlgorithm.resume
  cases answer <;> rfl

theorem isolated_collected (hs : G.Coherent s) (h : G.Isolated i fork s)
    (hfork : G.remoteAlgorithms[i]? = some fork) {move : Move V}
    (hmove : G.Undisturbed i fork s move) {outcome : Except PyExc (List R)}
    (hended : (G.step s move).spawner = .ended outcome) :
    ∃ submission r results, (G.step s move).phases i = some (.done submission (.ok r)) ∧
      outcome = .ok results ∧ r ∈ results := by
  by_cases hbefore : ∃ outcome', s.spawner = .ended outcome'
  · obtain ⟨outcome', hbefore⟩ := hbefore
    obtain rfl := Spawner.ended.inj (hended.symm.trans (ended_step hbefore move))
    obtain ⟨submission, r, results, hphase, hspec⟩ := h.collected outcome hbefore
    refine ⟨submission, r, results, ?_, hspec⟩
    rcases past_cases hs hfork hphase (by simp) move with
      ⟨hsame, -⟩ | ⟨answer, scheduler, phase', -, hresume, -⟩
    · exact hsame
    · rw [resume_done] at hresume
      cases hresume
  · have hspawner : ∃ order, move = .spawner order := by
      by_contra hother
      rw [not_exists] at hother
      exact hbefore ⟨outcome, (spawner_step_other hother).symm.trans hended⟩
    obtain ⟨order, rfl⟩ := hspawner
    have hstep : (G.stepSpawner s order).spawner = .ended outcome := hended
    unfold stepSpawner at hstep
    split at hstep
    · next index _ =>
      rcases spawner_launch (G := G) (s := s) index with ⟨-, hnext⟩ | hnext
      · cases hstep.symm.trans hnext
      · cases hstep.symm.trans hnext
    · next hwaiting =>
      split at hstep
      · next hall =>
        obtain ⟨hperm, hfinished⟩ := hall
        obtain rfl := Spawner.ended.inj hstep
        have hi : i ∈ order :=
          hperm.mem_iff.mpr (List.mem_range.mpr (List.getElem?_eq_some_iff.mp hfork).1)
        obtain ⟨submission, result, hphase⟩ :=
          phase_of_finished (List.all_eq_true.mp hfinished i hi)
        obtain ⟨args, -, hsound⟩ := (h.run _ hphase).resolve_left (by simp)
        obtain ⟨ids, commonTag, r, -, rfl, -⟩ := RemoteAlgorithm.result_of_done hsound
        have hresults : s.remoteResults order = .ok (order.filterMap s.result?) := by
          refine remoteResults_eq fun j _ submission' e herror => ?_
          by_cases hj : j = i
          · rw [hj, hphase] at herror
            cases herror
          · exact hmove hwaiting j hj submission' e herror
        refine ⟨submission, r, _, ?_, hresults, List.mem_filterMap.mpr ⟨i, hi, ?_⟩⟩
        · exact (phases_stepSpawner_of_started hs.launched order
            ((hs.linked.started i).mpr ⟨_, hphase⟩)).trans hphase
        · rw [State.result?, hphase]
      · cases hwaiting.symm.trans hstep
    · exact absurd ⟨outcome, hstep⟩ hbefore

theorem Isolated.step (hinputs : ∀ x, G.Own fork x → Cache.Succeeds G.inputs x)
    (hs : G.Coherent s) (h : G.Isolated i fork s) (hfork : G.remoteAlgorithms[i]? = some fork)
    {move : Move V} (hruns : G.RunsOn i fork s move) (hmove : G.Undisturbed i fork s move) :
    G.Isolated i fork (G.step s move) where
  unfailed := by
    rw [cache_step]
    exact Cache.unfailed_step hinputs hs.booked.1 h.unfailed (undisturbed_caller hmove)
  run _ hphase := isolated_run hs h hfork hruns hmove hphase
  collected _ hended := isolated_collected hs h hfork hmove hended

omit [DecidableEq Obj] in
theorem isolated_initial (scheduler : Scheduler Nat F C) :
    G.Isolated i fork (G.initial scheduler (.launching 0)) where
  unfailed t task htask := by simp [initial, Cache.initial] at htask
  run phase hphase := by cases hphase
  collected outcome hended := by cases hended

/-- A remote algorithm whose inputs, code and calls raise nothing contributes its result in every
run in which no failure of others reaches it. -/
theorem contributes_of_undisturbed (G : DirectedGraph Obj Val F C V α R)
    (hac : Acyclic G.inputs.readers) {i : Nat} {fork : Fork Obj F C V α R}
    (hfork : G.remoteAlgorithms[i]? = some fork)
    (hinputs : ∀ x, G.Own fork x → Cache.Succeeds G.inputs x) (scheduler : Scheduler Nat F C)
    (σ : ℕ → Move V) (hfair : G.FairFrom (G.initial scheduler (.launching 0)) σ)
    (hruns : ∀ n, G.RunsOn i fork (stateAt G.step (G.initial scheduler (.launching 0)) σ n) (σ n))
    (hmoves : ∀ n,
      G.Undisturbed i fork (stateAt G.step (G.initial scheduler (.launching 0)) σ n) (σ n)) :
    Eventually G.step (G.initial scheduler (.launching 0)) σ 0 (G.Contributed i fork) := by
  have hforks : 0 < G.remoteAlgorithms.length :=
    (Nat.zero_le i).trans_lt (List.getElem?_eq_some_iff.mp hfork).1
  have hcoherent := coherent_initial (G := G) scheduler hforks
  refine (eventually_collected hac hfair hcoherent rfl).chain fun n _ hended => ?_
  obtain ⟨outcome, hended⟩ := hended
  obtain ⟨-, hisolated⟩ := stateAt_induction
    (C := fun s move => G.RunsOn i fork s move ∧ G.Undisturbed i fork s move)
    (I := fun s => G.Coherent s ∧ G.Isolated i fork s)
    (fun s move h hC => ⟨h.1.step move, h.2.step hinputs h.1 hfork hC.1 hC.2⟩)
    ⟨hcoherent, isolated_initial scheduler⟩ (fun n => ⟨hruns n, hmoves n⟩) n
  refine ⟨n, le_rfl, ?_⟩
  obtain ⟨submission, r, results, hphase, rfl, hr⟩ := hisolated.collected outcome hended
  obtain ⟨args, hresolved, hsound⟩ := (hisolated.run _ hphase).resolve_left (by simp)
  obtain ⟨ids, commonTag, r', rfl, heq, hsubmitted⟩ := RemoteAlgorithm.result_of_done hsound
  obtain rfl := Except.ok.inj heq
  exact ⟨args, ids, commonTag, r, results, hresolved, hphase, hsubmitted, hended, hr⟩

end DirectedGraph

/-! ### Two siblings -/

/-- Of two inputs without readers, the second one fails. -/
def siblingInputs : Cache.Inputs Bool Unit where
  cacheKey x := toString x
  classAlias x := toString x
  readers _ := []
  contextOpen _ _ := ⟨0, .ok ()⟩
  evaluate _ x _ := if x then ⟨1, .ok (some ())⟩ else ⟨0, .error (.raised valueError "no data")⟩
  contextClose _ _ := ⟨0, .ok ()⟩
  errorMap := shippedErrorMap

/-- A remote algorithm with one payload. -/
def onePayload : RemoteAlgorithm Unit Unit Unit Unit Unit :=
  { idleAlgorithm with coreRun := fun _ => .ok [()] }

/-- Two remote algorithms that need one input each. -/
def siblings : DirectedGraph Bool Unit Unit Unit Unit Unit Unit where
  inputs := siblingInputs
  kwargs := .empty
  asArg := fun _ => .object ()
  remoteAlgorithms := [⟨onePayload, [true]⟩, ⟨onePayload, [false]⟩]
  spawnBaseDelaySeconds := 0
  others := []

def noRun : Scheduler Nat Unit Unit := ⟨[], List.nodup_nil⟩

/-- The first one is past its inputs when the input of the second one fails. -/
def calmMoves : List (DirectedGraph.Move Unit) :=
  [.spawner [], .fork 0 .ends, .cache (.task 0), .cache (.task 0), .fork 0 .ends, .fork 0 .ends,
    .fork 1 .ends, .cache (.task 1), .fork 1 .ends, .fork 0 .ends, .fork 0 (.creates "run-1" none),
    .spawner [0, 1]]

/-- What follows changes nothing any more. -/
def idleMoves (n : ℕ) : DirectedGraph.Move Unit :=
  match n.unpair.1 with
  | 0 => .spawner [0, 1]
  | 1 => .fork 0 .ends
  | 2 => .fork 1 .ends
  | t + 3 => .cache (.task t)

/-- The first one contributes its run although the input of the second one fails. -/
def afterCalm : DirectedGraph.State Bool Unit Unit Unit Unit Unit Unit :=
  run siblings.step (siblings.initial noRun (.launching 0)) calmMoves

theorem idleMoves_step (n : ℕ) : siblings.step afterCalm (idleMoves n) = afterCalm := by
  unfold idleMoves
  match n.unpair.1 with
  | 0 => rfl
  | 1 => rfl
  | 2 => rfl
  | 3 => rfl
  | 4 => rfl
  | t + 5 => rfl

theorem exists_idleMoves (v : ℕ) (move : DirectedGraph.Move Unit)
    (h : ∀ n : ℕ, n.unpair.1 = v → idleMoves n = move) (k : ℕ) :
    ∃ m ≥ k, followedBy calmMoves idleMoves m = move ∧
      stateAt siblings.step (siblings.initial noRun (.launching 0))
        (followedBy calmMoves idleMoves) m = afterCalm := by
  refine ⟨calmMoves.length + Nat.pair v k, ?_, ?_, stateAt_followedBy idleMoves_step _⟩
  · exact (Nat.right_le_pair v k).trans (Nat.le_add_left _ _)
  · rw [followedBy_add]
    exact h _ (by rw [Nat.unpair_pair])

theorem fairFrom_calm : siblings.FairFrom (siblings.initial noRun (.launching 0))
    (followedBy calmMoves idleMoves) where
  tasks t k := by
    obtain ⟨m, hm, hσ, -⟩ := exists_idleMoves (t + 3) (.cache (.task t))
      (fun n hn => by simp only [idleMoves, hn]) k
    exact ⟨m, hm, hσ⟩
  runs i hi k := by
    have hfinished (i : Nat) (hi : i < 2) : afterCalm.finished i = true := by
      match i with
      | 0 => rfl
      | 1 => rfl
    have hmove (n : ℕ) (hn : n.unpair.1 = i + 1) : idleMoves n = .fork i .ends := by
      match i, hi with
      | 0, _ => simp only [idleMoves, hn]
      | 1, _ => simp only [idleMoves, hn]
    obtain ⟨m, hm, hσ, hstate⟩ := exists_idleMoves (i + 1) _ hmove k
    refine ⟨m, hm, .ends, hσ, fun fork phase _ _ _ hopen => ?_⟩
    rw [hstate, hfinished i hi] at hopen
    cases hopen
  spawner k := by
    obtain ⟨m, hm, hσ, -⟩ := exists_idleMoves 0 (.spawner [0, 1])
      (fun n hn => by simp only [idleMoves, hn]) k
    exact ⟨m, hm, [0, 1], hσ, .refl _⟩

theorem own_siblings {x : Bool} (h : siblings.Own ⟨onePayload, [true]⟩ x) : x = true := by
  induction h with
  | arg hx => exact List.mem_singleton.mp hx
  | reader _ hy _ => cases hy

theorem succeeds_siblings (x : Bool) (h : siblings.Own ⟨onePayload, [true]⟩ x) :
    Cache.Succeeds siblingInputs x := by
  obtain rfl := own_siblings h
  exact ⟨fun _ => rfl, fun _ _ => ⟨_, rfl⟩, fun _ => rfl⟩

section Siblings

variable {s : DirectedGraph.State Bool Unit Unit Unit Unit Unit Unit}

theorem runsOn_resolving {answer : Answer Unit} (hphase : s.phases 0 = some (.resolving .empty))
    (hargs : ∃ args, measuredArgs .empty (siblings.toArgs (s.cache.collect siblingInputs [true])) =
      .ok args) : siblings.RunsOn 0 ⟨onePayload, [true]⟩ s (.fork 0 answer) := by
  intro _ phase hphase'
  obtain rfl := Option.some.inj (hphase.symm.trans hphase')
  refine ⟨trivial, fun kwargs hkwargs _ => ?_⟩
  obtain rfl := Phase.resolving.inj hkwargs
  exact hargs

theorem runsOn_running {args : RunArgs Unit} (hphase : s.phases 0 = some (.running args))
    (hsmooth : onePayload.Smooth args [()] "tag") :
    siblings.RunsOn 0 ⟨onePayload, [true]⟩ s (.fork 0 .ends) := by
  intro _ phase hphase'
  obtain rfl := Option.some.inj (hphase.symm.trans hphase')
  exact ⟨⟨[()], "tag", hsmooth⟩, by simp⟩

theorem runsOn_creating {l : Submitting Unit Unit} {request : RunRequest Unit Unit} {id : String}
    (hphase : s.phases 0 = some (.creating l request)) :
    siblings.RunsOn 0 ⟨onePayload, [true]⟩ s (.fork 0 (.creates id none)) := by
  intro _ phase hphase'
  obtain rfl := Option.some.inj (hphase.symm.trans hphase')
  exact ⟨trivial, by simp⟩

theorem runsOn_done {answer : Answer Unit} {submission : Option (List String × String)}
    {result : Except PyExc Unit} (hphase : s.phases 0 = some (.done submission result)) :
    siblings.RunsOn 0 ⟨onePayload, [true]⟩ s (.fork 0 answer) := by
  intro _ phase hphase'
  obtain rfl := Option.some.inj (hphase.symm.trans hphase')
  exact ⟨trivial, by simp⟩

theorem runsOn_other {answer : Answer Unit} :
    siblings.RunsOn 0 ⟨onePayload, [true]⟩ s (.fork 1 answer) := by
  intro h
  cases h

end Siblings

theorem runsOn_calm : Along siblings.step (siblings.RunsOn 0 ⟨onePayload, [true]⟩)
    (siblings.initial noRun (.launching 0)) calmMoves :=
  ⟨trivial, runsOn_resolving rfl ⟨_, rfl⟩, trivial, trivial, runsOn_resolving rfl ⟨_, rfl⟩,
    runsOn_resolving rfl ⟨_, rfl⟩, runsOn_other, trivial, runsOn_other,
    runsOn_running rfl ⟨rfl, rfl, fun _ _ => ⟨_, rfl⟩, fun _ _ => ⟨_, rfl⟩, ⟨_, rfl⟩,
      fun _ => ⟨_, rfl⟩⟩,
    runsOn_creating rfl, trivial, trivial⟩

section Siblings

variable {s : DirectedGraph.State Bool Unit Unit Unit Unit Unit Unit}

theorem undisturbed_of_firstFailure (hnone : s.cache.firstFailure siblingInputs = none)
    {move : DirectedGraph.Move Unit} (hmove : ∀ order, move ≠ .spawner order) :
    siblings.Undisturbed 0 ⟨onePayload, [true]⟩ s move := by
  have hfailures : s.cache.FailuresIn (siblings.Own ⟨onePayload, [true]⟩) :=
    Cache.failuresIn_of_firstFailure hnone
  cases move with
  | spawner order => exact absurd rfl (hmove order)
  | fork j answer => exact fun _ _ _ _ => hfailures
  | cache caller =>
    cases caller with
    | call j => trivial
    | task t => exact fun _ _ _ _ => hfailures

theorem undisturbed_launching {index : Nat} {order : List Nat}
    (hspawner : s.spawner = .launching index) :
    siblings.Undisturbed 0 ⟨onePayload, [true]⟩ s (.spawner order) := by
  intro hwaiting
  cases hspawner.symm.trans hwaiting

theorem undisturbed_other {answer : Answer Unit} :
    siblings.Undisturbed 0 ⟨onePayload, [true]⟩ s (.fork 1 answer) := by
  intro h
  cases h

theorem undisturbed_collecting {order : List Nat} {e : PyExc}
    (hphase : s.phases 1 = some (.failed e)) (he : e.isCancelled = false)
    (hother : ∀ j, s.phases (j + 2) = none) :
    siblings.Undisturbed 0 ⟨onePayload, [true]⟩ s (.spawner order) := by
  intro _ j hj submission e' hphase'
  match j with
  | 0 => exact absurd rfl hj
  | 1 =>
    cases hphase.symm.trans hphase'
    exact he
  | j + 2 => cases (hother j).symm.trans hphase'

theorem undisturbed_of_returned {call : Cache.Call Bool Unit} {answer : Answer Unit}
    {result : Cache.Kwargs Unit} (hcall : s.cache.calls[0]? = some call)
    (hreturned : call.state = .returned result) :
    siblings.Undisturbed 0 ⟨onePayload, [true]⟩ s (.fork 0 answer) := by
  intro _ call' hcall' hlooks
  obtain rfl := Option.some.inj (hcall.symm.trans hcall')
  rw [hreturned] at hlooks
  cases hlooks

end Siblings

theorem undisturbed_calm : Along siblings.step (siblings.Undisturbed 0 ⟨onePayload, [true]⟩)
    (siblings.initial noRun (.launching 0)) calmMoves :=
  ⟨undisturbed_launching rfl, undisturbed_of_firstFailure rfl (by simp),
    undisturbed_of_firstFailure rfl (by simp), undisturbed_of_firstFailure rfl (by simp),
    undisturbed_of_firstFailure rfl (by simp), undisturbed_of_firstFailure rfl (by simp),
    undisturbed_other, undisturbed_of_firstFailure rfl (by simp), undisturbed_other,
    undisturbed_of_returned rfl rfl, undisturbed_of_returned rfl rfl,
    undisturbed_collecting rfl rfl fun _ => rfl, trivial⟩

theorem runsOn_idle (n : ℕ) : siblings.RunsOn 0 ⟨onePayload, [true]⟩ afterCalm (idleMoves n) := by
  unfold idleMoves
  match n.unpair.1 with
  | 0 => trivial
  | 1 => exact runsOn_done rfl
  | 2 => exact runsOn_other
  | t + 3 => trivial

theorem undisturbed_idle (n : ℕ) :
    siblings.Undisturbed 0 ⟨onePayload, [true]⟩ afterCalm (idleMoves n) := by
  unfold idleMoves
  match n.unpair.1 with
  | 0 =>
    intro hwaiting
    cases hwaiting
  | 1 => exact undisturbed_of_returned rfl rfl
  | 2 => exact undisturbed_other
  | t + 3 =>
    intro task htask _ hlooks
    match t with
    | 0 =>
      cases htask
      cases hlooks
    | 1 =>
      cases htask
      cases hlooks
    | t + 2 => cases htask

theorem contributes_of_undisturbed_siblings :
    Eventually siblings.step (siblings.initial noRun (.launching 0))
      (followedBy calmMoves idleMoves) 0 (siblings.Contributed 0 ⟨onePayload, [true]⟩) :=
  DirectedGraph.contributes_of_undisturbed siblings
    (.of_rank (fun _ => 0) (by simp [siblings, siblingInputs])) rfl succeeds_siblings noRun _
    fairFrom_calm
    (along_followedBy runsOn_calm runsOn_idle idleMoves_step)
    (along_followedBy undisturbed_calm undisturbed_idle idleMoves_step)

/-- The input of the second one fails while the first one waits for its own. -/
def failingMoves : List (DirectedGraph.Move Unit) :=
  [.spawner [], .fork 0 .ends, .fork 1 .ends, .cache (.task 1), .fork 0 .ends, .fork 1 .ends,
    .spawner [0, 1]]

/-- Nothing of the first one raises, but its result never is among the collected ones. -/
theorem sibling_failure_ends_fork :
    (∀ x, siblings.Own ⟨onePayload, [true]⟩ x → Cache.Succeeds siblings.inputs x) ∧
      Along siblings.step (siblings.RunsOn 0 ⟨onePayload, [true]⟩)
        (siblings.initial noRun (.launching 0)) failingMoves ∧
      ∀ σ, ¬ siblings.Contributed 0 ⟨onePayload, [true]⟩
        (run siblings.step (siblings.initial noRun (.launching 0)) (failingMoves ++ σ)) := by
  refine ⟨succeeds_siblings, ?_, fun σ => ?_⟩
  · exact ⟨trivial, runsOn_resolving rfl ⟨_, rfl⟩, runsOn_other, trivial,
      runsOn_resolving rfl ⟨_, rfl⟩, runsOn_other, trivial, trivial⟩
  · have hended : (run siblings.step (siblings.initial noRun (.launching 0))
        failingMoves).spawner = .ended (.ok []) := rfl
    have hstays : (run siblings.step (siblings.initial noRun (.launching 0))
        (failingMoves ++ σ)).spawner = .ended (.ok []) := by
      rw [run_append]
      exact run_invariant
        (I := fun s : DirectedGraph.State Bool Unit Unit Unit Unit Unit Unit =>
          s.spawner = .ended (.ok []))
        (fun s move h => DirectedGraph.ended_step h move) hended σ
    rintro ⟨args, ids, commonTag, r, results, -, -, -, hcollected, hr⟩
    cases hstays.symm.trans hcollected
    cases hr

end NexusSdk.Algorithms
