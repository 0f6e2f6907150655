import NexusSdk.Algorithms.Runs
import NexusSdk.Algorithms.Spawning
import NexusSdk.Cache.Termination

/-! Every remote algorithm that was spawned ends, and the spawner collects their results, if all that
can go on goes on again and again.  The part of a run before its inputs are resolved is a call of the
shared cache; the cache sees the moves as steps of its own. -/

namespace NexusSdk.Algorithms

open Lib

variable {Obj Val F C V α R : Type}

namespace DirectedGraph

variable {G : DirectedGraph Obj Val F C V α R} {s s' : State Obj Val F C V α R} {i j : Nat}
  {fork : Fork Obj F C V α R} {answer : Answer V}

/-! ### Runs and their calls of the cache -/

/-- The run is past the resolution of its inputs. -/
def State.Past (s : State Obj Val F C V α R) (i : Nat) : Prop :=
  ∃ phase, s.phases i = some phase ∧ ∀ kwargs, phase ≠ .resolving kwargs

/-- The call of the cache that a run makes: it has ended exactly if the run is past it. -/
def CallOf (G : DirectedGraph Obj Val F C V α R) (s : State Obj Val F C V α R) (i : Nat)
    (fork : Fork Obj F C V α R) : Prop :=
  ∃ st, s.cache.calls[i]? = some ⟨fork.inputProcessors, G.kwargs, st⟩ ∧
    (st.ended = true ↔ s.Past i)

structure Linked (G : DirectedGraph Obj Val F C V α R) (s : State Obj Val F C V α R) : Prop where
  started : ∀ i, i ∈ s.started ↔ ∃ phase, s.phases i = some phase
  calls : ∀ i fork, G.remoteAlgorithms[i]? = some fork → G.CallOf s i fork

theorem CallOf.frame (h : G.CallOf s i fork) (hcall : s'.cache.calls[i]? = s.cache.calls[i]?)
    (hphase : s'.phases i = s.phases i) : G.CallOf s' i fork := by
  obtain ⟨st, hst, hpast⟩ := h
  refine ⟨st, hcall.trans hst, ?_⟩
  rw [hpast, State.Past, State.Past, hphase]

theorem linked_startRun (h : G.Linked s) (hi : i ∉ s.started) : G.Linked (G.startRun s i) := by
  refine ⟨fun j => ?_, fun j fork hfork => ?_⟩
  · by_cases hj : j = i
    · subst hj
      simp [startRun]
    · simp [startRun, hj, h.started]
  · by_cases hj : j = i
    · subst hj
      obtain ⟨st, hst, hpast⟩ := h.calls j fork hfork
      refine ⟨st, hst, ?_⟩
      have hbefore : ¬ s.Past j := by
        rintro ⟨phase, hphase, -⟩
        exact hi ((h.started j).mpr ⟨phase, hphase⟩)
      have hafter : ¬ (G.startRun s j).Past j := by
        rintro ⟨phase, hphase, hresolved⟩
        simp only [startRun, Function.update_self, Option.some.injEq] at hphase
        exact hresolved _ hphase.symm
      rw [hpast]
      exact iff_of_false hbefore hafter
    · exact (h.calls j fork hfork).frame rfl (by simp [startRun, hj])

theorem linked_startRun_foldl {l : List Nat} (h : G.Linked s) (hnodup : l.Nodup)
    (hl : ∀ j ∈ l, j ∉ s.started) : G.Linked (l.foldl G.startRun s) := by
  induction l generalizing s with
  | nil => exact h
  | cons i l ih =>
    obtain ⟨hi, hnodup⟩ := List.nodup_cons.mp hnodup
    refine ih (linked_startRun h (hl i List.mem_cons_self)) hnodup fun j hj => ?_
    have hne : j ≠ i := by
      rintro rfl
      exact hi hj
    simp [startRun, hne, hl j (List.mem_cons_of_mem i hj)]

theorem startRun_foldl_frame (l : List Nat) :
    (l.foldl G.startRun s).cache = s.cache ∧ (l.foldl G.startRun s).scheduler = s.scheduler ∧
      ∀ j, (l.foldl G.startRun s).phases j =
        if j ∈ l then some (.resolving (G.toArgs G.kwargs)) else s.phases j := by
  induction l generalizing s with
  | nil => exact ⟨rfl, rfl, fun _ => rfl⟩
  | cons i l ih =>
    obtain ⟨hcache, hscheduler, hphases⟩ := ih (s := G.startRun s i)
    refine ⟨hcache, hscheduler, fun j => (hphases j).trans ?_⟩
    by_cases hl : j ∈ l
    · simp [hl]
    · by_cases hj : j = i
      · simp [hj, startRun]
      · simp [hl, hj, startRun]

/-- A launch starts runs that have not been started, and does nothing else besides moving on. -/
theorem launch_cases (index : Nat) :
    ∃ (l : List Nat) (spawner : Spawner R), G.launch s index =
      { l.foldl G.startRun s with spawner } ∧ l.Nodup ∧ ∀ j ∈ l, index ≤ j := by
  unfold launch
  split
  · exact ⟨[index], _, rfl, List.nodup_singleton _, by simp⟩
  · refine ⟨_, _, rfl, List.nodup_range', fun j hj => ?_⟩
    exact (List.mem_range'_1.mp hj).1

theorem stepSpawner_frame (order : List Nat) :
    (G.stepSpawner s order).cache = s.cache ∧
      (G.stepSpawner s order).scheduler = s.scheduler := by
  unfold stepSpawner
  split
  · next index _ =>
    obtain ⟨l, spawner, hlaunch, -, -⟩ := launch_cases (G := G) (s := s) index
    obtain ⟨hcache, hscheduler, -⟩ := startRun_foldl_frame (G := G) (s := s) l
    rw [hlaunch]
    exact ⟨hcache, hscheduler⟩
  · split <;> exact ⟨rfl, rfl⟩
  · exact ⟨rfl, rfl⟩

/-- The spawner starts runs, each one once. -/
theorem phases_stepSpawner (h : G.Launched s) (order : List Nat) (i : Nat) :
    (G.stepSpawner s order).phases i = s.phases i ∨
      i ∉ s.started ∧
        (G.stepSpawner s order).phases i = some (.resolving (G.toArgs G.kwargs)) := by
  unfold stepSpawner
  split
  · next index hspawner =>
    rw [Launched, hspawner] at h
    obtain ⟨l, spawner, hlaunch, -, hl⟩ := launch_cases (G := G) (s := s) index
    obtain ⟨-, -, hphases⟩ := startRun_foldl_frame (G := G) (s := s) l
    rw [hlaunch]
    by_cases hi : i ∈ l
    · right
      refine ⟨?_, (hphases i).trans (if_pos hi)⟩
      rw [h.2, List.mem_range]
      have := hl i hi
      omega
    · exact .inl ((hphases i).trans (if_neg hi))
  · left
    split <;> rfl
  · exact .inl rfl

theorem phases_stepSpawner_of_started (h : G.Launched s) (order : List Nat) (hi : i ∈ s.started) :
    (G.stepSpawner s order).phases i = s.phases i :=
  (phases_stepSpawner h order i).resolve_right fun hnew => hnew.1 hi

theorem linked_stepSpawner (h : G.Linked s) (hlaunched : G.Launched s) (order : List Nat) :
    G.Linked (G.stepSpawner s order) := by
  unfold stepSpawner
  split
  · next index hspawner =>
    rw [Launched, hspawner] at hlaunched
    obtain ⟨l, spawner, hlaunch, hnodup, hl⟩ := launch_cases (G := G) (s := s) index
    have hfold : G.Linked (l.foldl G.startRun s) := linked_startRun_foldl h hnodup fun j hj hmem => by
      rw [hlaunched.2, List.mem_range] at hmem
      have := hl j hj
      omega
    rw [hlaunch]
    exact ⟨hfold.started, hfold.calls⟩
  · split <;> exact ⟨h.started, h.calls⟩
  · exact h

/-! ### Moves of a remote algorithm -/

/-- What a move of remote algorithm `i` can do. -/
inductive ForkSteps [DecidableEq Obj] (G : DirectedGraph Obj Val F C V α R)
    (s : State Obj Val F C V α R) (i : Nat) (answer : Answer V) : State Obj Val F C V α R → Prop
  | absent (h : ∀ fork phase, G.remoteAlgorithms[i]? = some fork → s.phases i ≠ some phase) :
      ForkSteps G s i answer s
  | waits {fork : Fork Obj F C V α R} {kwargs : RunArgs V}
      (hfork : G.remoteAlgorithms[i]? = some fork) (hphase : s.phases i = some (.resolving kwargs))
      (hopen : ∀ call, (s.cache.step G.inputs (.call i)).calls[i]? = some call →
        call.state.ended = false) :
      ForkSteps G s i answer { s with cache := s.cache.step G.inputs (.call i) }
  | resolved {fork : Fork Obj F C V α R} {kwargs : RunArgs V} {call : Cache.Call Obj Val}
      {phase : Phase Nat F C V α R} (hfork : G.remoteAlgorithms[i]? = some fork)
      (hphase : s.phases i = some (.resolving kwargs))
      (hcall : (s.cache.step G.inputs (.call i)).calls[i]? = some call)
      (hended : (∃ results, call.state = .returned results ∧
          phase = afterResolve kwargs (G.toArgs results)) ∨
        ∃ e, call.state = .raised e ∧ phase = .failed e) :
      ForkSteps G s i answer { s with
        cache := s.cache.step G.inputs (.call i)
        phases := Function.update s.phases i (some phase) }
  | refused {fork : Fork Obj F C V α R} {phase : Phase Nat F C V α R}
      (hfork : G.remoteAlgorithms[i]? = some fork) (hphase : s.phases i = some phase)
      (hresolved : ∀ kwargs, phase ≠ .resolving kwargs)
      (hresume : fork.algorithm.resume i s.scheduler phase answer = none) :
      ForkSteps G s i answer s
  | resumed {fork : Fork Obj F C V α R} {phase phase' : Phase Nat F C V α R}
      {scheduler : Scheduler Nat F C} (hfork : G.remoteAlgorithms[i]? = some fork)
      (hphase : s.phases i = some phase) (hresolved : ∀ kwargs, phase ≠ .resolving kwargs)
      (hresume : fork.algorithm.resume i s.scheduler phase answer = some (scheduler, phase')) :
      ForkSteps G s i answer
        { s with scheduler, phases := Function.update s.phases i (some phase') }

variable [DecidableEq Obj]

theorem resumeResolved_cases {kwargs : RunArgs V} (hfork : G.remoteAlgorithms[i]? = some fork)
    (hphase : s.phases i = some (.resolving kwargs)) :
    ForkSteps G s i answer
      (G.resumeResolved fork { s with cache := s.cache.step G.inputs (.call i) } i kwargs) := by
  unfold resumeResolved
  split
  · next results hcall =>
    obtain ⟨call, hcall, hreturned⟩ := Option.map_eq_some_iff.mp hcall
    exact .resolved hfork hphase hcall (.inl ⟨results, hreturned, rfl⟩)
  · next e hcall =>
    obtain ⟨call, hcall, hraised⟩ := Option.map_eq_some_iff.mp hcall
    exact .resolved hfork hphase hcall (.inr ⟨e, hraised, rfl⟩)
  · next hreturned hraised =>
    refine .waits hfork hphase fun call hcall => ?_
    obtain ⟨args, kw, st⟩ := call
    cases st with
    | returned results => exact absurd (by simp [hcall]) (hreturned results)
    | raised e => exact absurd (by simp [hcall]) (hraised e)
    | _ => rfl

theorem resume_cases {phase : Phase Nat F C V α R} (hfork : G.remoteAlgorithms[i]? = some fork)
    (hphase : s.phases i = some phase) (hresolved : ∀ kwargs, phase ≠ .resolving kwargs) :
    ForkSteps G s i answer (resume fork s i phase answer) := by
  unfold resume
  split
  · next hresume => exact .refused hfork hphase hresolved hresume
  · next hresume => exact .resumed hfork hphase hresolved hresume

theorem stepFork_cases : ForkSteps G s i answer (G.stepFork s i answer) := by
  unfold stepFork
  split
  · next hfork hphase => exact resumeResolved_cases hfork hphase
  · next hresolved hfork hphase => exact resume_cases hfork hphase hresolved
  · next hnone => exact .absent hnone

theorem linked_stepFork (h : G.Linked s) (answer : Answer V) : G.Linked (G.stepFork s i answer) := by
  have hsteps : ForkSteps G s i answer (G.stepFork s i answer) := stepFork_cases
  generalize G.stepFork s i answer = s' at hsteps ⊢
  -- the other runs, and their calls, are left as they are
  have hframe {s' : State Obj Val F C V α R} (hstarted : s'.started = s.started)
      (hphase : (∃ phase, s'.phases i = some phase) ↔ ∃ phase, s.phases i = some phase)
      (hphases : ∀ j ≠ i, s'.phases j = s.phases j)
      (hcalls : ∀ j ≠ i, s'.cache.calls[j]? = s.cache.calls[j]?)
      (hcall : ∀ fork, G.remoteAlgorithms[i]? = some fork → G.CallOf s i fork →
        G.CallOf s' i fork) : G.Linked s' := by
    refine ⟨fun j => ?_, fun j fork hfork => ?_⟩
    · rw [hstarted, h.started]
      by_cases hj : j = i
      · rw [hj, hphase]
      · rw [hphases j hj]
    · by_cases hj : j = i
      · subst hj
        exact hcall fork hfork (h.calls j fork hfork)
      · exact (h.calls j fork hfork).frame (hcalls j hj) (hphases j hj)
  have hother : ∀ j ≠ i, (s.cache.step G.inputs (.call i)).calls[j]? = s.cache.calls[j]? :=
    fun j hj => Cache.State.call_step_other (by simpa using Ne.symm hj)
  cases hsteps with
  | absent _ => exact h
  | refused _ _ _ _ => exact h
  | @waits fork kwargs hfork hphase hopen =>
    refine hframe rfl Iff.rfl (fun _ _ => rfl) hother fun fork' hfork' hcall => ?_
    obtain ⟨st, hst, -⟩ := hcall
    obtain ⟨st', hst'⟩ := (Cache.callLeft_step (P := G.inputs) (c := .call i) hst).1
    refine ⟨st', hst', iff_of_false ?_ ?_⟩
    · have hfalse : st'.ended = false := hopen _ hst'
      simp [hfalse]
    · rintro ⟨phase, hsome, hresolved⟩
      exact hresolved kwargs (Option.some.inj (hsome.symm.trans hphase))
  | @resolved fork kwargs call phase hfork hphase hcall hended =>
    refine hframe rfl ?_ (fun j hj => Function.update_of_ne hj _ _) hother fun fork' hfork' hbefore => ?_
    · simp [hphase]
    · obtain ⟨st, hst, -⟩ := hbefore
      obtain ⟨st', hst'⟩ := (Cache.callLeft_step (P := G.inputs) (c := .call i) hst).1
      obtain rfl := Option.some.inj (hcall.symm.trans hst')
      refine ⟨st', hst', iff_of_true ?_ ⟨phase, Function.update_self .., ?_⟩⟩
      · rcases hended with ⟨results, hreturned, -⟩ | ⟨e, hraised, -⟩
        · obtain rfl : st' = .returned results := hreturned
          rfl
        · obtain rfl : st' = .raised e := hraised
          rfl
      · rcases hended with ⟨results, -, rfl⟩ | ⟨e, -, rfl⟩
        · intro kwargs'
          unfold afterResolve
          split <;> simp [Phase.failed]
        · simp [Phase.failed]
  | @resumed fork phase phase' scheduler hfork hphase hresolved hresume =>
    refine hframe rfl ?_ (fun j hj => Function.update_of_ne hj _ _) (fun _ _ => rfl)
      fun fork' hfork' hbefore => ?_
    · simp [hphase]
    · obtain ⟨st, hst, hpast⟩ := hbefore
      refine ⟨st, hst, hpast.trans (iff_of_true ⟨phase, hphase, hresolved⟩ ?_)⟩
      exact ⟨phase', Function.update_self .., ne_resolving_of_resume hresume⟩

/-! ### The steps of the cache -/

/-- The step of the cache in a move; the call after the last stands for none. -/
def callerOf (G : DirectedGraph Obj Val F C V α R) (s : State Obj Val F C V α R) :
    Move V → Cache.Caller
  | .spawner _ => .call s.cache.calls.length
  | .fork i _ =>
    match G.remoteAlgorithms[i]?, s.phases i with
    | some _, some (.resolving _) => .call i
    | _, _ => .call s.cache.calls.length
  | .cache caller => if G.ownedByFork caller then .call s.cache.calls.length else caller

theorem step_no_call (s : Cache.State Obj Val) (P : Cache.Inputs Obj Val) :
    s.step P (.call s.calls.length) = s := by
  simp [Cache.State.step, Cache.State.stepCall]

omit [DecidableEq Obj] in
theorem callerOf_resolving {kwargs : RunArgs V} (hfork : G.remoteAlgorithms[i]? = some fork)
    (hphase : s.phases i = some (.resolving kwargs)) :
    G.callerOf s (.fork i answer) = .call i := by
  simp only [callerOf, hfork, hphase]

omit [DecidableEq Obj] in
theorem callerOf_other (h : ∀ fork kwargs, G.remoteAlgorithms[i]? = some fork →
    s.phases i ≠ some (.resolving kwargs)) :
    G.callerOf s (.fork i answer) = .call s.cache.calls.length := by
  unfold callerOf
  dsimp only
  split
  · next hfork hphase => exact absurd hphase (h _ _ hfork)
  · rfl

omit [DecidableEq Obj] in
theorem callerOf_fork (G : DirectedGraph Obj Val F C V α R) (s : State Obj Val F C V α R) (i : Nat)
    (answer : Answer V) : ∃ k, G.callerOf s (.fork i answer) = .call k := by
  unfold callerOf
  dsimp only
  split <;> exact ⟨_, rfl⟩

theorem cache_stepFork :
    (G.stepFork s i answer).cache = s.cache.step G.inputs (G.callerOf s (.fork i answer)) := by
  have hsteps : ForkSteps G s i answer (G.stepFork s i answer) := stepFork_cases
  generalize G.stepFork s i answer = s' at hsteps ⊢
  have hpast {phase : Phase Nat F C V α R} (hphase : s.phases i = some phase)
      (hresolved : ∀ kwargs, phase ≠ .resolving kwargs) :
      G.callerOf s (.fork i answer) = .call s.cache.calls.length :=
    callerOf_other fun _ kwargs _ heq => hresolved kwargs (Option.some.inj (hphase.symm.trans heq))
  cases hsteps with
  | absent habsent =>
    rw [callerOf_other fun fork kwargs hfork => habsent fork _ hfork, step_no_call]
  | refused _ hphase hresolved _ => rw [hpast hphase hresolved, step_no_call]
  | waits hfork hphase _ => rw [callerOf_resolving hfork hphase]
  | resolved hfork hphase _ _ => rw [callerOf_resolving hfork hphase]
  | resumed _ hphase hresolved _ => rw [hpast hphase hresolved, step_no_call]

theorem cache_step (s : State Obj Val F C V α R) (move : Move V) :
    (G.step s move).cache = s.cache.step G.inputs (G.callerOf s move) := by
  cases move with
  | spawner order =>
    show (G.stepSpawner s order).cache = _
    rw [(stepSpawner_frame order).1, callerOf, step_no_call]
  | fork i answer => exact cache_stepFork
  | cache caller =>
    rw [step, callerOf]
    split
    · rw [step_no_call]
    · rfl

theorem linked_cache (h : G.Linked s) (caller : Cache.Caller) :
    G.Linked (G.step s (.cache caller)) := by
  rw [step]
  split
  · exact h
  · next howned =>
    refine ⟨h.started, fun i fork hfork => (h.calls i fork hfork).frame ?_ rfl⟩
    refine Cache.State.call_step_other ?_
    rintro rfl
    have hlt := (List.getElem?_eq_some_iff.mp hfork).1
    simp [ownedByFork, hlt] at howned

/-! ### What holds in every state -/

structure Coherent (G : DirectedGraph Obj Val F C V α R) (s : State Obj Val F C V α R) :
    Prop where
  launched : G.Launched s
  linked : G.Linked s
  booked : Cache.Accounted G.inputs s.cache ∧ Cache.Progressing G.inputs s.cache

theorem Coherent.step (h : G.Coherent s) (move : Move V) : G.Coherent (G.step s move) := by
  refine ⟨launched_step h.launched move, ?_, ?_⟩
  · cases move with
    | spawner order => exact linked_stepSpawner h.linked h.launched order
    | fork i answer => exact linked_stepFork h.linked answer
    | cache caller => exact linked_cache h.linked caller
  · rw [cache_step]
    exact Cache.booked_step h.booked

theorem coherent_initial (scheduler : Scheduler Nat F C) (hforks : 0 < G.remoteAlgorithms.length) :
    G.Coherent (G.initial scheduler (.launching 0)) where
  launched := ⟨hforks, rfl⟩
  linked := by
    refine ⟨fun i => by simp [initial], fun i fork hfork => ⟨.idle, ?_, ?_⟩⟩
    · have hlt := (List.getElem?_eq_some_iff.mp hfork).1
      have hcall : (G.remoteAlgorithms.map fun fork => (fork.inputProcessors, G.kwargs))[i]? =
          some (fork.inputProcessors, G.kwargs) := by
        rw [List.getElem?_map, hfork]
        rfl
      simp only [initial, Cache.initial, List.getElem?_map]
      rw [List.getElem?_append_left (by simpa using hlt), hcall]
      rfl
    · refine iff_of_false (by simp [Cache.CallState.ended]) ?_
      rintro ⟨phase, hphase, -⟩
      cases hphase
  booked := ⟨Cache.Accounted.initial .., Cache.Progressing.initial ..⟩

/-! ### Schedules -/

/-- A run that awaits a call past the resolution of its inputs can have the answer. -/
def CanHave (G : DirectedGraph Obj Val F C V α R) (s : State Obj Val F C V α R) (i : Nat)
    (answer : Answer V) : Prop :=
  ∀ fork phase, G.remoteAlgorithms[i]? = some fork → s.phases i = some phase →
    (∀ kwargs, phase ≠ .resolving kwargs) → s.finished i = false →
    (fork.algorithm.resume i s.scheduler phase answer).isSome

/-- Every task, every run and the spawner go on again and again. -/
structure FairFrom (G : DirectedGraph Obj Val F C V α R) (s : State Obj Val F C V α R)
    (σ : ℕ → Move V) : Prop where
  tasks : ∀ t, ∀ k, ∃ m ≥ k, σ m = .cache (.task t)
  runs : ∀ i < G.remoteAlgorithms.length, ∀ k, ∃ m ≥ k, ∃ answer, σ m = .fork i answer ∧
    G.CanHave (stateAt G.step s σ m) i answer
  spawner : ∀ k, ∃ m ≥ k, ∃ order, σ m = .spawner order ∧
    order.Perm (List.range G.remoteAlgorithms.length)

/-- All remote algorithms have been launched. -/
def State.Settled (s : State Obj Val F C V α R) : Prop :=
  s.spawner = .waiting ∨ ∃ outcome, s.spawner = .ended outcome

def launchesLeft (G : DirectedGraph Obj Val F C V α R) (s : State Obj Val F C V α R) : Nat :=
  match s.spawner with
  | .launching index => G.remoteAlgorithms.length - index
  | _ => 0

omit [DecidableEq Obj] in
theorem spawner_launch (index : Nat) :
    (index + 1 < G.remoteAlgorithms.length ∧
        (G.launch s index).spawner = .launching (index + 1)) ∨
      (G.launch s index).spawner = .waiting := by
  unfold launch
  split
  · dsimp only
    split
    · next hlt => exact .inl ⟨hlt, rfl⟩
    · exact .inr rfl
  · exact .inr rfl

omit [DecidableEq Obj] in
theorem launchesLeft_of_settled (h : s.Settled) : G.launchesLeft s = 0 := by
  rcases h with hwaiting | ⟨outcome, hended⟩
  · simp [launchesLeft, hwaiting]
  · simp [launchesLeft, hended]

/-- Each move of the spawner launches, until all are launched. -/
theorem launching_step {index : Nat} (h : s.spawner = .launching index) (move : Move V) :
    (G.step s move).Settled ∨
      (∃ index', (G.step s move).spawner = .launching index') ∧
        (G.launchesLeft (G.step s move) < G.launchesLeft s ∨
          G.launchesLeft (G.step s move) = G.launchesLeft s ∧
            ∀ order, move ≠ .spawner order) := by
  by_cases hmove : ∃ order, move = .spawner order
  · obtain ⟨order, rfl⟩ := hmove
    rw [step, stepSpawner, h]
    rcases spawner_launch (G := G) (s := s) index with ⟨hlt, hnext⟩ | hwaiting
    · refine .inr ⟨⟨_, hnext⟩, .inl ?_⟩
      simp only [launchesLeft, hnext, h]
      omega
    · exact .inl (.inl hwaiting)
  · rw [not_exists] at hmove
    have hsame := spawner_step_other (G := G) (s := s) hmove
    exact .inr ⟨⟨index, hsame.trans h⟩, .inr ⟨by simp only [launchesLeft, hsame], hmove⟩⟩

theorem settled_step (h : s.Settled) (move : Move V) : (G.step s move).Settled := by
  rcases h with hwaiting | ⟨outcome, hended⟩
  · by_cases hmove : ∃ order, move = .spawner order
    · obtain ⟨order, rfl⟩ := hmove
      rw [step, stepSpawner, hwaiting]
      dsimp only
      split
      · exact .inr ⟨_, rfl⟩
      · exact .inl hwaiting
    · rw [not_exists] at hmove
      exact .inl ((spawner_step_other hmove).trans hwaiting)
  · exact .inr ⟨outcome, ended_step hended move⟩

/-- What can happen to a run that is past the resolution of its inputs. -/
theorem past_cases (h : G.Coherent s) (hfork : G.remoteAlgorithms[i]? = some fork)
    {phase : Phase Nat F C V α R} (hphase : s.phases i = some phase)
    (hresolved : ∀ kwargs, phase ≠ .resolving kwargs) (move : Move V) :
    ((G.step s move).phases i = some phase ∧ ∀ answer, move = .fork i answer →
        fork.algorithm.resume i s.scheduler phase answer = none) ∨
      ∃ answer scheduler phase', move = .fork i answer ∧
        fork.algorithm.resume i s.scheduler phase answer = some (scheduler, phase') ∧
        (G.step s move).scheduler = scheduler ∧ (G.step s move).phases i = some phase' := by
  cases move with
  | spawner order =>
    left
    refine ⟨?_, by simp⟩
    exact (phases_stepSpawner_of_started h.launched order ((h.linked.started i).mpr ⟨phase, hphase⟩)).trans hphase
  | cache caller =>
    left
    rw [step]
    split <;> exact ⟨hphase, by simp⟩
  | fork j answer =>
    have hsteps : ForkSteps G s j answer (G.stepFork s j answer) := stepFork_cases
    show ((G.stepFork s j answer).phases i = _ ∧ _) ∨ ∃ _ _ _, _ ∧ _ ∧
      (G.stepFork s j answer).scheduler = _ ∧ (G.stepFork s j answer).phases i = _
    generalize G.stepFork s j answer = s' at hsteps ⊢
    by_cases hj : j = i
    · subst hj
      have hsame {phase' : Phase Nat F C V α R} (hphase' : s.phases j = some phase') :
          phase' = phase := Option.some.inj (hphase'.symm.trans hphase)
      have hfork' {fork' : Fork Obj F C V α R} (h : G.remoteAlgorithms[j]? = some fork') :
          fork' = fork := Option.some.inj (h.symm.trans hfork)
      cases hsteps with
      | absent habsent => exact absurd hphase (habsent fork phase hfork)
      | waits _ hwaits _ => exact absurd (hsame hwaits).symm (hresolved _)
      | resolved _ hwaits _ _ => exact absurd (hsame hwaits).symm (hresolved _)
      | refused hf hp _ hresume =>
        left
        refine ⟨hphase, fun answer' hanswer => ?_⟩
        cases hanswer
        rwa [hfork' hf, hsame hp] at hresume
      | @resumed fork' old phase' scheduler hf hp _ hresume =>
        right
        rw [hfork' hf, hsame hp] at hresume
        exact ⟨answer, scheduler, phase', rfl, hresume, rfl, Function.update_self ..⟩
    · have hother : ∀ answer', Move.fork j answer = .fork i answer' →
          fork.algorithm.resume i s.scheduler phase answer' = none := by
        rintro answer' heq
        exact absurd (Move.fork.inj heq).1 hj
      left
      cases hsteps with
      | resolved _ _ _ _ => exact ⟨(Function.update_of_ne (Ne.symm hj) _ _).trans hphase, hother⟩
      | resumed _ _ _ _ => exact ⟨(Function.update_of_ne (Ne.symm hj) _ _).trans hphase, hother⟩
      | _ => exact ⟨hphase, hother⟩

theorem past_step (h : G.Coherent s) (hfork : G.remoteAlgorithms[i]? = some fork) (hpast : s.Past i)
    (move : Move V) : (G.step s move).Past i := by
  obtain ⟨phase, hphase, hresolved⟩ := hpast
  rcases past_cases h hfork hphase hresolved move with
    ⟨hsame, -⟩ | ⟨answer, scheduler, phase', -, hresume, -, hnext⟩
  · exact ⟨phase, hsame, hresolved⟩
  · exact ⟨phase', hnext, ne_resolving_of_resume hresume⟩

omit [DecidableEq Obj] in
theorem phase_of_finished (h : s.finished i = true) :
    ∃ submission result, s.phases i = some (.done submission result) := by
  unfold State.finished at h
  split at h
  · next submission result hphase => exact ⟨submission, result, hphase⟩
  · cases h

theorem finished_step (h : G.Coherent s) (hfinished : s.finished i = true) (move : Move V) :
    (G.step s move).finished i = true := by
  obtain ⟨submission, result, hphase⟩ := phase_of_finished hfinished
  cases move with
  | spawner order =>
    have hsame := phases_stepSpawner_of_started h.launched order ((h.linked.started i).mpr ⟨_, hphase⟩)
    show (G.stepSpawner s order).finished i = true
    rw [State.finished, hsame, hphase]
  | fork j answer => exact (follows_stepFork answer).finished i hfinished
  | cache caller => exact (follows_cache caller).finished i hfinished

/-! ### Ends of runs -/

/-- What is left of run `i` past the resolution of its inputs. -/
def runLeft (i : Nat) (fork : Fork Obj F C V α R) (s : State Obj Val F C V α R) : ℕ ×ₗ ℕ ×ₗ ℕ :=
  match s.phases i with
  | some phase => phase.left fork.algorithm
  | none => ⊥

theorem runLeft_step (h : G.Coherent s) (hfork : G.remoteAlgorithms[i]? = some fork)
    (hpast : s.Past i) (move : Move V) :
    runLeft i fork (G.step s move) < runLeft i fork s ∨
      runLeft i fork (G.step s move) = runLeft i fork s ∧
        ∀ answer, move = .fork i answer → s.finished i = false → ¬ G.CanHave s i answer := by
  obtain ⟨phase, hphase, hresolved⟩ := hpast
  rcases past_cases h hfork hphase hresolved move with
    ⟨hsame, hnone⟩ | ⟨answer, scheduler, phase', -, hresume, -, hnext⟩
  · right
    refine ⟨by simp only [runLeft, hsame, hphase], fun answer hmove hfinished hcan => ?_⟩
    have hsome := hcan fork phase hfork hphase hresolved hfinished
    rw [hnone answer hmove] at hsome
    cases hsome
  · left
    simp only [runLeft, hnext, hphase]
    exact left_resume hresolved hresume

section Schedules

variable {σ : ℕ → Move V} {n : ℕ}

theorem coherent_stateAt (h : G.Coherent s) (n : ℕ) : G.Coherent (stateAt G.step s σ n) :=
  stateAt_invariant (fun _ move h => h.step move) h n

theorem eventually_settled (hfair : G.FairFrom s σ) {index : Nat}
    (hs : s.spawner = .launching index) : Eventually G.step s σ 0 State.Settled := by
  refine Eventually.of_measure (M := fun _ move => ∃ order, move = .spawner order) G.launchesLeft
    (I := fun s => s.Settled ∨ ∃ index, s.spawner = .launching index) ?_ ?_ ?_ (fun k _ => ?_)
    (.inr ⟨index, hs⟩)
  · rintro s move (hsettled | ⟨index, hindex⟩)
    · exact .inl (settled_step hsettled move)
    · exact (launching_step hindex move).imp_right And.left
  · intro s move h hnot
    obtain ⟨index, hindex⟩ := h.resolve_left hnot
    rcases launching_step (G := G) hindex move with hsettled | ⟨-, hlt | ⟨heq, -⟩⟩
    · rw [launchesLeft_of_settled hsettled]
      exact Nat.zero_le _
    · exact hlt.le
    · exact heq.le
  · rintro s move ⟨order, rfl⟩ h hnot
    obtain ⟨index, hindex⟩ := h.resolve_left hnot
    rcases launching_step (G := G) hindex (.spawner order) with hsettled | ⟨-, hlt | ⟨-, hother⟩⟩
    · exact .inl hsettled
    · exact .inr hlt
    · exact absurd rfl (hother order)
  · obtain ⟨m, hm, order, hσ, -⟩ := hfair.spawner k
    exact ⟨m, hm, .inl ⟨order, hσ⟩⟩

theorem started_of_settled (h : G.Coherent s) (hsettled : s.Settled)
    (hi : i < G.remoteAlgorithms.length) : ∃ phase, s.phases i = some phase := by
  refine (h.linked.started i).mp ?_
  have hlaunched := h.launched
  rcases hsettled with hwaiting | ⟨outcome, hended⟩
  · rw [Launched, hwaiting] at hlaunched
    rw [hlaunched]
    exact List.mem_range.mpr hi
  · rw [Launched, hended] at hlaunched
    rw [hlaunched.1]
    exact List.mem_range.mpr hi

/-- Once it is launched, a run resolves its inputs, or fails to. -/
theorem eventually_past (hac : Acyclic G.inputs.readers) (hfair : G.FairFrom s σ)
    (hs : G.Coherent s) (hfork : G.remoteAlgorithms[i]? = some fork)
    (hsettled : (stateAt G.step s σ n).Settled) :
    Eventually G.step s σ n fun s => s.Past i := by
  obtain ⟨hi, -⟩ := List.getElem?_eq_some_iff.mp hfork
  have hcache (m : ℕ) : (stateAt G.step s σ m).cache =
      stateAt (Cache.State.step G.inputs) s.cache
        (fun k => G.callerOf (stateAt G.step s σ k) (σ k)) m :=
    stateAt_component cache_step m
  have hpast (m : ℕ) : (stateAt G.step s σ m).cache.CallEnded i ↔ (stateAt G.step s σ m).Past i := by
    obtain ⟨st, hst, hiff⟩ := (coherent_stateAt hs m).linked.calls i fork hfork
    rw [← hiff]
    refine ⟨fun ⟨call, hcall, hended⟩ => ?_, fun hended => ⟨_, hst, hended⟩⟩
    obtain rfl := Option.some.inj (hst.symm.trans hcall)
    exact hended
  obtain ⟨st, hcall, -⟩ := hs.linked.calls i fork hfork
  have htasks (t k : ℕ) : ∃ m ≥ k, G.callerOf (stateAt G.step s σ m) (σ m) = .task t := by
    obtain ⟨m, hm, hσ⟩ := hfair.tasks t k
    exact ⟨m, hm, by simp [hσ, callerOf, ownedByFork]⟩
  have hagain : ∀ k ≥ n, ∃ m ≥ k, G.callerOf (stateAt G.step s σ m) (σ m) = .call i ∨
      (stateAt (Cache.State.step G.inputs) s.cache
        (fun k => G.callerOf (stateAt G.step s σ k) (σ k)) m).CallEnded i := by
    intro k hk
    obtain ⟨m, hm, answer, hσ, -⟩ := hfair.runs i hi k
    refine ⟨m, hm, ?_⟩
    rw [← hcache, hpast]
    have hsettledAt := stateAt_stable (P := State.Settled) (fun _ move h => settled_step h move)
      (hk.trans hm) hsettled
    obtain ⟨phase, hphase⟩ := started_of_settled (coherent_stateAt hs m) hsettledAt hi
    by_cases hresolved : ∀ kwargs, phase ≠ .resolving kwargs
    · exact .inr ⟨phase, hphase, hresolved⟩
    · simp only [not_forall, not_not] at hresolved
      obtain ⟨kwargs, rfl⟩ := hresolved
      left
      rw [hσ]
      exact callerOf_resolving hfork hphase
  obtain ⟨m, hm, hended⟩ := Cache.eventually_callEnded htasks hac hs.booked hcall hagain
  rw [← hcache] at hended
  exact ⟨m, hm, (hpast m).mp hended⟩

theorem eventually_finished (hac : Acyclic G.inputs.readers) (hfair : G.FairFrom s σ)
    (hs : G.Coherent s) (hi : i < G.remoteAlgorithms.length)
    (hsettled : (stateAt G.step s σ n).Settled) :
    Eventually G.step s σ n fun s => G.Coherent s ∧ s.finished i = true := by
  obtain ⟨fork, hfork⟩ : ∃ fork, G.remoteAlgorithms[i]? = some fork :=
    ⟨_, List.getElem?_eq_getElem hi⟩
  refine (eventually_past hac hfair hs hfork hsettled).chain fun m _ hpast => ?_
  refine Eventually.of_measure
    (M := fun s move => ∃ answer, move = .fork i answer ∧ G.CanHave s i answer) (runLeft i fork)
    (I := fun s => G.Coherent s ∧ s.Past i) ?_ ?_ ?_ (fun k _ => ?_) ⟨coherent_stateAt hs m, hpast⟩
  · exact fun s move h => ⟨h.1.step move, past_step h.1 hfork h.2 move⟩
  · intro s move h _
    rcases runLeft_step h.1 hfork h.2 move with hlt | ⟨heq, -⟩
    · exact hlt.le
    · exact heq.le
  · rintro s move ⟨answer, rfl, hcan⟩ h hnot
    rcases runLeft_step h.1 hfork h.2 (.fork i answer) with hlt | ⟨-, hcannot⟩
    · exact .inr hlt
    · have hopen : s.finished i = false := by
        rw [← Bool.not_eq_true]
        exact fun hfinished => hnot ⟨h.1, hfinished⟩
      exact absurd hcan (hcannot answer rfl hopen)
  · obtain ⟨m', hm', answer, hσ, hcan⟩ := hfair.runs i hi k
    exact ⟨m', hm', .inl ⟨answer, hσ, hcan⟩⟩

/-- The spawner collects the results at last. -/
theorem eventually_collected (hac : Acyclic G.inputs.readers) (hfair : G.FairFrom s σ)
    (hs : G.Coherent s) {index : Nat} (hspawner : s.spawner = .launching index) :
    Eventually G.step s σ 0 fun s => ∃ outcome, s.spawner = .ended outcome := by
  refine (eventually_settled hfair hspawner).chain fun n _ hsettled => ?_
  have hall := Eventually.all
    (P := fun i (s : State Obj Val F C V α R) => G.Coherent s ∧ s.finished i = true)
    (fun i s move h => ⟨h.1.step move, finished_step h.1 h.2 move⟩)
    (l := List.range G.remoteAlgorithms.length) fun i hi =>
      eventually_finished hac hfair hs (List.mem_range.mp hi) hsettled
  refine hall.chain fun m hm hfinished => ?_
  obtain ⟨k, hk, order, hσ, hperm⟩ := hfair.spawner m
  have hsettledAt := stateAt_stable (P := State.Settled) (fun _ move h => settled_step h move)
    (hm.trans hk) hsettled
  rcases hsettledAt with hwaiting | hended
  swap
  · exact ⟨k, hk, hended⟩
  have hdone : order.all (stateAt G.step s σ k).finished = true := by
    refine List.all_eq_true.mpr fun i hi => ?_
    have hstable := stateAt_stable
      (P := fun s : State Obj Val F C V α R => G.Coherent s ∧ s.finished i = true)
      (fun s move h => ⟨h.1.step move, finished_step h.1 h.2 move⟩) hk
      (hfinished i (hperm.mem_iff.mp hi))
    exact hstable.2
  refine ⟨k + 1, hk.trans (Nat.le_succ k), (stateAt G.step s σ k).remoteResults order, ?_⟩
  show (G.step (stateAt G.step s σ k) (σ k)).spawner = .ended _
  rw [hσ, step, stepSpawner, hwaiting]
  dsimp only
  rw [if_pos ⟨hperm, hdone⟩]

end Schedules

end DirectedGraph

end NexusSdk.Algorithms
