import NexusSdk.Cache.Once

/-! What is still at work when a resolution ends.  Every call of `resolve` is open, returned or
raised, and every task comes from a call made before it.  So when all calls have returned, no task is
before the end of its `process`, and the two counters of the cache agree. -/

namespace NexusSdk.Cache

open Lib

variable {Obj Val : Type}

/-- The stages after `process`. -/
def Stage.processed : Stage Val → Bool
  | .closing _ _ | .done _ => true
  | _ => false

/-- The call `resolve(*args)` of `c` has returned or raised. -/
def Ended (history : List (Event Obj Val)) (c : Caller) (args : List Obj) : Prop :=
  (∃ d, .returned c args d ∈ history) ∨ ∃ e, .raised c e ∈ history

theorem Ended.append {h : List (Event Obj Val)} {c : Caller} {args : List Obj}
    (hend : Ended h c args) (h' : List (Event Obj Val)) : Ended (h ++ h') c args :=
  hend.imp (fun ⟨d, hd⟩ => ⟨d, List.mem_append_left _ hd⟩)
    fun ⟨e, he⟩ => ⟨e, List.mem_append_left _ he⟩

variable [DecidableEq Obj]

/-- Every call of `resolve` is open or has ended, every task was requested by a call that is not
made by a later task, and what is cached was processed. -/
structure Attributed (P : Inputs Obj Val) (s : State Obj Val) : Prop where
  answered : ∀ c args, .resolve c args ∈ s.history →
    (∃ n, s.Sleeps P c args n) ∨ Ended s.history c args
  requested : ∀ t x, s.obj? t = some x → ∃ c args, .resolve c args ∈ s.history ∧ x ∈ args ∧
    ∀ t', c = .task t' → t' < t
  cached : ∀ x, s.cache.contains x = true →
    ∃ t st, s.obj? t = some x ∧ s.stage? t = some st ∧ st.processed = true

/-- What holds within a step of `c`, whose call with the arguments `pending` is not yet asleep. -/
structure Attributing (P : Inputs Obj Val) (s : State Obj Val) (c : Caller)
    (pending : Option (List Obj)) : Prop where
  others : ∀ c' args, c' ≠ c → .resolve c' args ∈ s.history →
    (∃ n, s.Sleeps P c' args n) ∨ Ended s.history c' args
  own : ∀ args, .resolve c args ∈ s.history → pending = some args ∨ Ended s.history c args
  requested : ∀ t x, s.obj? t = some x → ∃ c args, .resolve c args ∈ s.history ∧ x ∈ args ∧
    ∀ t', c = .task t' → t' < t
  cached : ∀ x, s.cache.contains x = true →
    ∃ t st, s.obj? t = some x ∧ s.stage? t = some st ∧ st.processed = true

section Steps

variable {P : Inputs Obj Val} {s s' : State Obj Val} {t i n : Nat} {x : Obj} {args : List Obj}
  {c : Caller} {task : Task Obj Val} {st : Stage Val} {pending : Option (List Obj)}

omit [DecidableEq Obj] in
/-- A caller whose task or call is as before still sleeps. -/
theorem State.Sleeps.of_kept (h : s.Sleeps P c args n)
    (hcall : ∀ i, c = .call i → s'.calls[i]? = s.calls[i]?)
    (htask : ∀ t task, c = .task t → s.tasks[t]? = some task → s'.tasks[t]? = some task) :
    s'.Sleeps P c args n := by
  cases c with
  | call i =>
    obtain ⟨kw, h⟩ := h
    exact ⟨kw, (hcall i rfl).trans h⟩
  | task t =>
    obtain ⟨x, kw, h, hargs⟩ := h
    exact ⟨x, kw, htask t _ rfl h, hargs⟩

/-- A caller that does not sleep has no open call. -/
theorem Attributed.attributing (h : Attributed P s) (hawake : ∀ args n, ¬ s.Sleeps P c args n) :
    Attributing P s c none where
  others c' args _ := h.answered c' args
  own args hmem := .inr ((h.answered c args hmem).resolve_left fun ⟨n, hn⟩ => hawake args n hn)
  requested := h.requested
  cached := h.cached

/-- The call by which the new tasks are requested is made by a task that exists. -/
theorem Attributed.schedule {kw : Kwargs Val} (h : Attributed P s)
    (hawake : ∀ args n, ¬ s.Sleeps P c args n) (hexists : ∀ t, c = .task t → t < s.tasks.length) :
    Attributing P (s.schedule c args kw) c (some args) where
  others c' args' hne hmem := by
    rw [State.history_schedule] at hmem ⊢
    have hold : .resolve c' args' ∈ s.history := by simpa [hne] using hmem
    rcases h.answered c' args' hold with ⟨n, hn⟩ | hend
    · exact .inl ⟨n, hn.of_kept (fun i _ => by rw [State.calls_schedule])
        fun t task _ htask => State.task_schedule_of_some htask⟩
    · exact .inr (hend.append _)
  own args' hmem := by
    rw [State.history_schedule] at hmem ⊢
    rcases List.mem_append.mp hmem with hmem | hmem
    · have hend := (h.answered c args' hmem).resolve_left fun ⟨n, hn⟩ => hawake args' n hn
      exact .inr (hend.append _)
    · obtain ⟨-, rfl⟩ := Event.resolve.inj (List.mem_singleton.mp hmem)
      exact .inl rfl
  requested t x hx := by
    rw [State.history_schedule]
    obtain ⟨task, htask, rfl⟩ := State.exists_task_of_obj? hx
    rcases State.task_schedule htask with htask | ⟨k, y, rfl, hk, rfl⟩
    · obtain ⟨c', args', hmem, hrest⟩ := h.requested t _ (State.obj?_of_task htask)
      exact ⟨c', args', List.mem_append_left _ hmem, hrest⟩
    · refine ⟨c, args, by simp, (State.mem_toSchedule.mp (List.mem_of_getElem? hk)).1, ?_⟩
      intro t' ht'
      exact Nat.lt_add_right k (hexists t' ht')
  cached x hx := by
    rw [State.cache_schedule] at hx
    obtain ⟨t, st, hobj, hst, hpast⟩ := h.cached x hx
    exact ⟨t, st, State.obj?_schedule_of_some hobj, State.stage?_schedule_of_some hst, hpast⟩

theorem Attributed.polls (h : Attributed P s) (hp : State.Polls P s c args s' n) :
    Attributing P s' c (some args) := by
  cases hp with
  | first harr =>
    refine h.schedule (fun args' m hsleep => ?_) fun t ht => ?_
    · cases c with
      | call i =>
        obtain ⟨kw', hsleep⟩ := hsleep
        cases harr.symm.trans hsleep
      | task t =>
        obtain ⟨y, harr, -⟩ := harr
        obtain ⟨z, kw', hsleep, -⟩ := hsleep
        cases harr.symm.trans hsleep
    · subst ht
      obtain ⟨y, harr, -⟩ := harr
      exact (List.getElem?_eq_some_iff.mp harr).1
  | again hsleep =>
    refine ⟨fun c' args' _ => h.answered c' args', fun args' hmem => ?_, h.requested, h.cached⟩
    rcases h.answered c args' hmem with ⟨m, hm⟩ | hend
    · left
      cases c with
      | call i =>
        obtain ⟨kw, hsleep⟩ := hsleep
        obtain ⟨kw', hm⟩ := hm
        cases hsleep.symm.trans hm
        rfl
      | task t =>
        obtain ⟨y, kw, hsleep, rfl⟩ := hsleep
        obtain ⟨z, kw', hm, rfl⟩ := hm
        cases hsleep.symm.trans hm
        rfl
    · exact .inr hend

namespace Attributing

theorem log {e : Event Obj Val} (h : Attributing P s c pending)
    (he : ∀ c' args', e ≠ .resolve c' args') : Attributing P (s.log e) c pending where
  others c' args' hne hmem := by
    rcases List.mem_append.mp hmem with hmem | hmem
    · exact (h.others c' args' hne hmem).imp_right fun hend => hend.append _
    · exact absurd (List.mem_singleton.mp hmem).symm (he c' args')
  own args' hmem := by
    rcases List.mem_append.mp hmem with hmem | hmem
    · exact (h.own args' hmem).imp_right fun hend => hend.append _
    · exact absurd (List.mem_singleton.mp hmem).symm (he c args')
  requested t x hx := by
    obtain ⟨c', args', hmem, hrest⟩ := h.requested t x hx
    exact ⟨c', args', List.mem_append_left _ hmem, hrest⟩
  cached := h.cached

theorem handOut (h : Attributing P s c pending) : Attributing P s.handOut c pending where
  others c' args' hne hmem := (h.others c' args' hne hmem).imp_left fun ⟨n, hn⟩ =>
    ⟨n, hn.of_kept (fun _ _ => rfl) fun _ _ _ => id⟩
  own := h.own
  requested := h.requested
  cached := h.cached

theorem setStage (h : Attributing P s (.task t) pending)
    (hst : ∀ old, s.stage? t = some old → old.processed = true → st.processed = true) :
    Attributing P (s.setStage t st) (.task t) pending where
  others c' args' hne hmem := (h.others c' args' hne hmem).imp_left fun ⟨n, hn⟩ =>
    ⟨n, hn.of_kept (fun _ _ => rfl) fun t' task' ht' htask' =>
      State.task_setStage_other (fun heq => hne (by rw [ht', heq])) htask'⟩
  own := h.own
  requested t' x hx := h.requested t' x (by simpa using hx)
  cached x hx := by
    obtain ⟨t', old, hobj, hold, hpast⟩ := h.cached x hx
    by_cases heq : t' = t
    · subst heq
      exact ⟨t', st, by simpa using hobj, by simp [hold], hst old hold hpast⟩
    · exact ⟨t', old, by simpa using hobj, by simpa [heq] using hold, hpast⟩

theorem setCall {cst : CallState Val} (h : Attributing P s (.call i) pending) :
    Attributing P (s.setCall i cst) (.call i) pending where
  others c' args' hne hmem := (h.others c' args' hne hmem).imp_left fun ⟨n, hn⟩ =>
    ⟨n, hn.of_kept (fun j hj => by
        have hij : i ≠ j := fun heq => hne (by rw [hj, heq])
        simp [hij]) fun _ _ _ => id⟩
  own := h.own
  requested := h.requested
  cached := h.cached

theorem data (d : Obj → Option Val) (h : Attributing P s c pending) :
    Attributing P { s with data := d } c pending where
  others c' args' hne hmem := (h.others c' args' hne hmem).imp_left fun ⟨n, hn⟩ =>
    ⟨n, hn.of_kept (fun _ _ => rfl) fun _ _ _ => id⟩
  own := h.own
  requested := h.requested
  cached := h.cached

theorem totalExecuted (k : Nat) (h : Attributing P s c pending) :
    Attributing P { s with totalExecuted := k } c pending where
  others c' args' hne hmem := (h.others c' args' hne hmem).imp_left fun ⟨n, hn⟩ =>
    ⟨n, hn.of_kept (fun _ _ => rfl) fun _ _ _ => id⟩
  own := h.own
  requested := h.requested
  cached := h.cached

theorem endProcess {r : Except PyExc (Option Val)} (h : Attributing P s (.task t) pending)
    (hobj : s.obj? t = some x) : Attributing P (s.endProcess P t x r) (.task t) pending := by
  have hlog : Attributing P (s.log (.processed t x r)) (.task t) pending := h.log (by simp)
  have hset : Attributing P ((s.log (.processed t x r)).setStage t
      (.closing r (P.contextClose t x).suspensions)) (.task t) pending :=
    hlog.setStage fun _ _ _ => rfl
  refine ⟨hset.others, hset.own, hset.requested, fun y hy => ?_⟩
  rw [State.cache_endProcess, Dict.contains_set, Bool.or_eq_true, decide_eq_true_iff] at hy
  rcases hy with rfl | hy
  · obtain ⟨task, htask, rfl⟩ := State.exists_task_of_obj? hobj
    refine ⟨t, .closing r (P.contextClose t task.obj).suspensions, by simpa using hobj, ?_, rfl⟩
    simp [State.stage?_of_task htask]
  · exact hset.cached y hy

/-- The call of `c` has ended. -/
theorem ended (h : Attributing P s c (some args)) (hend : Ended s.history c args) :
    Attributing P s c none where
  others := h.others
  own args' hmem := by
    rcases h.own args' hmem with heq | hend'
    · obtain rfl := Option.some.inj heq
      exact .inr hend
    · exact .inr hend'
  requested := h.requested
  cached := h.cached

theorem answered (h : Attributing P s c none) : Attributed P s where
  answered c' args' hmem := by
    by_cases hc : c' = c
    · subst hc
      exact .inr ((h.own args' hmem).resolve_left (by simp))
    · exact h.others c' args' hc hmem
  requested := h.requested
  cached := h.cached

theorem asleep (h : Attributing P s c (some args)) (hsleep : s.Sleeps P c args n) :
    Attributed P s where
  answered c' args' hmem := by
    by_cases hc : c' = c
    · subst hc
      rcases h.own args' hmem with heq | hend
      · obtain rfl := Option.some.inj heq
        exact .inl ⟨n, hsleep⟩
      · exact .inr hend
    · exact h.others c' args' hc hmem
  requested := h.requested
  cached := h.cached

end Attributing

omit [DecidableEq Obj] in
theorem Ended.returned {d : Kwargs Val} :
    Ended (s.log (.returned c args d)).history c args :=
  .inl ⟨d, List.mem_append_right _ (List.mem_singleton_self _)⟩

omit [DecidableEq Obj] in
theorem Ended.raised {e : PyExc} : Ended (s.log (.raised c e)).history c args :=
  .inr ⟨e, List.mem_append_right _ (List.mem_singleton_self _)⟩

namespace Attributed

theorem stepCall (h : Attributed P s) : Attributed P (s.stepCall P i) := by
  refine State.stepCall_rule fun s₁ hstep => ?_
  cases hstep with
  | idle _ => exact h
  | @sleeps s' args n m hp hw =>
    refine (h.polls hp).setCall.asleep (n := m) ?_
    obtain ⟨kw, hcall⟩ : ∃ kw st, s'.calls[i]? = some ⟨args, kw, st⟩ := by
      rw [State.calls_polls hp]
      cases hp with
      | first harr => exact ⟨_, _, harr⟩
      | again hsleep =>
        obtain ⟨kw, hsleep⟩ := hsleep
        exact ⟨kw, _, hsleep⟩
    obtain ⟨st, hcall⟩ := hcall
    exact ⟨kw, by simp [hcall]⟩
  | raises hp _ => exact (((h.polls hp).handOut.log (by simp)).ended .raised).setCall.answered
  | returns hp _ => exact (((h.polls hp).log (by simp)).ended .returned).setCall.answered

theorem advance (h : Attributed P s) : Attributed P (s.advance P t) := by
  refine State.advance_rule h fun task s₁ htask hadv => ?_
  -- a task that is not asleep in `resolve` has no open call
  have hawake (hst : ∀ n, task.stage ≠ .resolving n) : Attributing P s (.task t) none := by
    refine h.attributing fun args n hsleep => ?_
    obtain ⟨x, kw, hsleep, -⟩ := hsleep
    obtain rfl := Option.some.inj (htask.symm.trans hsleep)
    exact hst n rfl
  have hobj := State.obj?_of_task htask
  have hbefore {s' : State Obj Val} (htask' : s'.tasks[t]? = some task) (st : Stage Val)
      (hst : task.stage.processed = true → st.processed = true) :
      ∀ old, s'.stage? t = some old → old.processed = true → st.processed = true := by
    intro old hold hpast
    rw [State.stage?_of_task htask'] at hold
    obtain rfl := Option.some.inj hold
    exact hst hpast
  cases hadv with
  | start hc =>
    refine (((hawake (by simp [hc])).totalExecuted _).setStage ?_).answered
    have htask' : { s with totalExecuted := s.totalExecuted + 1 }.tasks[t]? = some task := htask
    exact hbefore htask' _ (by simp [hc, Stage.processed])
  | @tick st htick =>
    refine ((hawake fun n => ?_).setStage (hbefore htask _ ?_)).answered
    · generalize task.stage = old at htick
      cases htick <;> simp
    · generalize task.stage = old at htick
      cases htick <;> exact id
  | opened hc _ =>
    exact ((hawake (by simp [hc])).setStage (hbefore htask _ (by simp [hc, Stage.processed]))).answered
  | openRaised hc _ => exact ((hawake (by simp [hc])).setStage fun _ _ _ => rfl).answered
  | found hc _ => exact ((hawake (by simp [hc])).endProcess hobj).answered
  | @sleeps s' n m hp hw =>
    obtain ⟨htask', hstage⟩ := State.task_of_polls htask hp
    refine ((h.polls hp).setStage (hbefore htask' _ ?_)).asleep (n := m) ?_
    · rcases hstage with hstage | hstage <;> simp [hstage, Stage.processed]
    · exact ⟨task.obj, task.kwargs, by simp [htask'], rfl⟩
  | raises hp _ =>
    obtain ⟨htask', -⟩ := State.task_of_polls htask hp
    refine Attributing.answered (.endProcess ?_ (State.obj?_of_task htask'))
    exact ((h.polls hp).handOut.log (by simp)).ended .raised
  | returns hp _ =>
    obtain ⟨htask', hstage⟩ := State.task_of_polls htask hp
    refine (((((h.polls hp).log (by simp)).ended .returned).log (by simp)).setStage ?_).answered
    refine hbefore htask' _ ?_
    rcases hstage with hstage | hstage <;> simp [hstage, Stage.processed]
  | @evaluated kw v hc _ =>
    have hdata := (hawake (by simp [hc])).data (Function.update s.data task.obj v)
    exact (hdata.endProcess hobj).answered
  | evaluateRaised hc _ => exact ((hawake (by simp [hc])).endProcess hobj).answered
  | closed hc _ => exact ((hawake (by simp [hc])).setStage fun _ _ _ => rfl).answered
  | closeRaised hc _ => exact ((hawake (by simp [hc])).setStage fun _ _ _ => rfl).answered

theorem step (h : Attributed P s) : Attributed P (s.step P c) :=
  State.step_induction (fun _ => h.stepCall) (fun _ _ hs => hs.advance) h

theorem initial (P : Inputs Obj Val) (calls : List (List Obj × Kwargs Val)) :
    Attributed P (Cache.initial calls) where
  answered c args hmem := by simp [Cache.initial] at hmem
  requested t x hx := by simp [Cache.initial, State.obj?] at hx
  cached x hx := by simp [Cache.initial] at hx

end Attributed

end Steps

theorem attributed_exec (P : Inputs Obj Val) (calls : List (List Obj × Kwargs Val))
    (σ : List Caller) : Attributed P (exec P calls σ) :=
  run_invariant (fun _ _ h => h.step) (Attributed.initial P calls) σ

/-! ### After the last call -/

/-- All top-level calls have ended, and no call of `resolve` has raised. -/
structure FullyResolved (s : State Obj Val) : Prop where
  ended : ∀ (i : Nat) (call : Call Obj Val), s.calls[i]? = some call → call.state.ended = true
  returned : ∀ c e, .raised c e ∉ s.history

/-- Nothing is left to do but to close contexts. -/
structure Quiescent (s : State Obj Val) : Prop where
  calls : ∀ (i : Nat) (call : Call Obj Val), s.calls[i]? = some call → call.state.ended = true
  tasks : ∀ (t : Nat) (task : Task Obj Val), s.tasks[t]? = some task → task.stage.processed = true

section After

variable {P : Inputs Obj Val} {s : State Obj Val}

/-- By induction on the tasks in the order of their creation: the call that requested the task has
returned, so the input is cached, and its only task is past `process`. -/
theorem cached_of_resolved (h : Attributed P s) (hacc : Accounted P s) (hone : OneTask s)
    (hres : FullyResolved s) {t : Nat} {task : Task Obj Val} (htask : s.tasks[t]? = some task) :
    s.cache.contains task.obj = true ∧ task.stage.processed = true := by
  induction t using Nat.strong_induction_on generalizing task with
  | _ t ih =>
  obtain ⟨c, args, hmem, hx, hbefore⟩ := h.requested t task.obj (State.obj?_of_task htask)
  have hawake (n : Nat) : ¬ s.Sleeps P c args n := by
    intro hsleep
    cases c with
    | call i =>
      obtain ⟨kw, hcall⟩ := hsleep
      cases hres.ended i _ hcall
    | task t' =>
      obtain ⟨x, kw, htask', -⟩ := hsleep
      cases (ih t' (hbefore t' rfl) htask').2
  obtain ⟨d, hd⟩ : ∃ d, .returned c args d ∈ s.history := by
    rcases h.answered c args hmem with ⟨n, hn⟩ | hd | ⟨e, he⟩
    · exact absurd hn (hawake n)
    · exact hd
    · exact absurd he (hres.returned c e)
  have hcached := hacc.returned c args d hd _ hx
  obtain ⟨t', st, hobj, hst, hpast⟩ := h.cached _ hcached
  have hsame := (hone.unique _ t' hobj).symm.trans (hone.unique _ t (State.obj?_of_task htask))
  obtain rfl := Option.some.inj hsame
  rw [State.stage?_of_task htask] at hst
  obtain rfl := Option.some.inj hst
  exact ⟨hcached, hpast⟩

theorem quiescent_of_resolved (h : Attributed P s) (hacc : Accounted P s) (hone : OneTask s)
    (hres : FullyResolved s) : Quiescent s :=
  ⟨hres.ended, fun _ _ htask => (cached_of_resolved h hacc hone hres htask).2⟩

/-- A step of a call that has ended changes nothing. -/
theorem State.stepCall_of_ended {i : Nat} {call : Call Obj Val} (hcall : s.calls[i]? = some call)
    (hended : call.state.ended = true) : s.stepCall P i = s := by
  obtain ⟨args, kw, st⟩ := call
  cases st with
  | returned d => simp only [stepCall, hcall]
  | raised e => simp only [stepCall, hcall]
  | idle => cases hended
  | polling n => cases hended

/-- A step after the last call closes a context, or does nothing. -/
theorem Quiescent.advance {t : Nat} (h : Quiescent s) :
    Quiescent (s.advance P t) ∧ (s.advance P t).history = s.history := by
  refine State.advance_rule (Q := fun s' => Quiescent s' ∧ s'.history = s.history) ⟨h, rfl⟩
    fun task s₁ htask hadv => ?_
  have hset (st : Stage Val) (hst : st.processed = true) : Quiescent (s.setStage t st) := by
    refine ⟨h.calls, fun t' task' htask' => ?_⟩
    obtain ⟨old, hold, -, -, hstage⟩ := State.task_setStage htask'
    rw [hstage]
    split
    · exact hst
    · exact h.tasks t' old hold
  have hpast := h.tasks t task htask
  have hpolls {s' : State Obj Val} {args : List Obj} {n : Nat} :
      ¬ State.Polls P s (.task t) args s' n := by
    intro hp
    obtain ⟨-, hstage⟩ := State.task_of_polls htask hp
    rcases hstage with hstage | hstage <;> simp [hstage, Stage.processed] at hpast
  cases hadv with
  | @tick st htick =>
    refine ⟨hset st ?_, rfl⟩
    generalize task.stage = old at htick hpast
    cases htick <;> exact hpast
  | closed _ _ => exact ⟨hset _ rfl, rfl⟩
  | closeRaised _ _ => exact ⟨hset _ rfl, rfl⟩
  | openRaised _ _ => exact ⟨hset _ rfl, rfl⟩
  | sleeps hp _ => exact absurd hp hpolls
  | raises hp _ => exact absurd hp hpolls
  | returns hp _ => exact absurd hp hpolls
  | start hc => simp [hc, Stage.processed] at hpast
  | opened hc _ => simp [hc, Stage.processed] at hpast
  | found hc _ => simp [hc, Stage.processed] at hpast
  | evaluated hc _ => simp [hc, Stage.processed] at hpast
  | evaluateRaised hc _ => simp [hc, Stage.processed] at hpast

theorem Quiescent.step {c : Caller} (h : Quiescent s) :
    Quiescent (s.step P c) ∧ (s.step P c).history = s.history := by
  refine State.step_induction (I := fun s' => Quiescent s' ∧ s'.history = s.history)
    (fun i => ?_) (fun s' t hs' => ?_) ⟨h, rfl⟩
  · have hidle : s.stepCall P i = s := by
      cases hcall : s.calls[i]? with
      | none => simp only [State.stepCall, hcall]
      | some call => exact State.stepCall_of_ended hcall (h.calls i call hcall)
    rw [hidle]
    exact ⟨h, rfl⟩
  · exact ⟨(hs'.1.advance).1, (hs'.1.advance).2.trans hs'.2⟩

theorem Quiescent.run (h : Quiescent s) (τ : List Caller) :
    Quiescent (Lib.run (State.step P) s τ) ∧
      (Lib.run (State.step P) s τ).history = s.history := by
  have hstep (s' : State Obj Val) (c : Caller) (hs : Quiescent s' ∧ s'.history = s.history) :
      Quiescent (s'.step P c) ∧ (s'.step P c).history = s.history :=
    ⟨(hs.1.step).1, (hs.1.step).2.trans hs.2⟩
  exact run_invariant hstep ⟨h, rfl⟩ τ

omit [DecidableEq Obj] in
theorem Quiescent.processed (h : Quiescent s) {task : Task Obj Val} (htask : task ∈ s.tasks) :
    task.stage.processed = true := by
  obtain ⟨t, ht⟩ := List.mem_iff_getElem?.mp htask
  exact h.tasks t task ht

end After

theorem quiescent_exec {P : Inputs Obj Val} {calls : List (List Obj × Kwargs Val)}
    {σ : List Caller}
    (hone : Along (State.step P) (fun s c => (s.toSchedule (s.requested P c)).Nodup)
      (initial calls) σ)
    (hres : FullyResolved (exec P calls σ)) : Quiescent (exec P calls σ) :=
  quiescent_of_resolved (attributed_exec P calls σ) (accounted_exec P calls σ)
    (run_induction (fun _ _ hs hn => hs.step hn) (OneTask.initial calls) hone) hres

/-- When all top-level calls have returned without an error, and no call listed an unscheduled
object twice, every task is past its `process`, and in no continuation of the run is an input
evaluated or a call of `resolve` made. -/
theorem quiescent_when_resolved (P : Inputs Obj Val) (calls : List (List Obj × Kwargs Val))
    (σ : List Caller)
    (hone : Along (State.step P) (fun s c => (s.toSchedule (s.requested P c)).Nodup)
      (initial calls) σ)
    (hres : FullyResolved (exec P calls σ)) (τ : List Caller) :
    (∀ task ∈ (exec P calls (σ ++ τ)).tasks, task.stage.processed = true) ∧
      (exec P calls (σ ++ τ)).history = (exec P calls σ).history := by
  obtain ⟨hquiet, hhistory⟩ := (quiescent_exec hone hres).run (P := P) τ
  rw [exec, run_append]
  exact ⟨fun _ htask => hquiet.processed htask, hhistory⟩

theorem resolved_readerChain :
    FullyResolved (exec readerChain [([true, false], .empty)] chainResolved) where
  ended i call hcall := by
    have hall : (exec readerChain [([true, false], .empty)] chainResolved).calls.all
        (fun call => call.state.ended) = true := by decide
    exact List.all_eq_true.mp hall call (List.mem_of_getElem? hcall)
  returned c e hmem := by
    have hall : (exec readerChain [([true, false], .empty)] chainResolved).history.all
        (fun
          | .raised _ _ => false
          | _ => true) = true := by decide
    cases List.all_eq_true.mp hall _ hmem

theorem quiescent_when_resolved_readerChain :
    let calls : List (List Bool × Kwargs String) := [([true, false], .empty)]
    (∀ task ∈ (exec readerChain calls (chainResolved ++ [.call 0])).tasks,
        task.stage.processed = true) ∧
      (exec readerChain calls (chainResolved ++ [.call 0])).history =
        (exec readerChain calls chainResolved).history :=
  quiescent_when_resolved readerChain _ chainResolved nodup_requested_readerChain
    resolved_readerChain [.call 0]

/-! ### Returned calls -/

/-- The arguments of a call that has returned are cached. -/
def ReturnedCached (s : State Obj Val) : Prop :=
  ∀ (i : Nat) (call : Call Obj Val) (d : Kwargs Val), s.calls[i]? = some call →
    call.state = .returned d → ∀ x ∈ call.args, s.cache.contains x = true

section Returned

variable {P : Inputs Obj Val} {s : State Obj Val} {i : Nat}

theorem ReturnedCached.setCall {st : CallState Val} (h : ReturnedCached s)
    (hst : ∀ call d, s.calls[i]? = some call → st = .returned d →
      ∀ x ∈ call.args, s.cache.contains x = true) : ReturnedCached (s.setCall i st) := by
  intro j call d hcall hd
  rw [State.calls_setCall, List.getElem?_modify] at hcall
  obtain ⟨old, hold, rfl⟩ := Option.map_eq_some_iff.mp hcall
  split at hd
  · next heq =>
    subst heq
    rw [if_pos rfl]
    exact hst old d hold hd
  · next hne =>
    rw [if_neg hne]
    exact h j old d hold hd

theorem ReturnedCached.log {e : Event Obj Val} (h : ReturnedCached s) : ReturnedCached (s.log e) := h

theorem ReturnedCached.handOut (h : ReturnedCached s) : ReturnedCached s.handOut := h

theorem ReturnedCached.stepCall (h : ReturnedCached s) (hacc : Accounted P s) :
    ReturnedCached (s.stepCall P i) := by
  refine State.stepCall_rule fun s₁ hstep => ?_
  have hpolls {s' : State Obj Val} {args : List Obj} {n : Nat}
      (hp : State.Polls P s (.call i) args s' n) : ReturnedCached s' := by
    intro j call d hcall hd x hx
    rw [State.calls_polls hp] at hcall
    rw [State.cache_polls hp]
    exact h j call d hcall hd x hx
  cases hstep with
  | idle _ => exact h
  | sleeps hp _ => exact (hpolls hp).setCall (by simp)
  | raises hp _ => exact (hpolls hp).handOut.log.setCall (by simp)
  | returns hp hw =>
    obtain ⟨hn, -⟩ := State.waitForCache_returns hw
    refine (hpolls hp).log.setCall fun call d hcall _ x hx => ?_
    rw [State.args_of_polls_call hp hcall] at hx
    exact (hacc.polls hp).2 hn x hx

theorem ReturnedCached.step {c : Caller} (h : ReturnedCached s) (hacc : Accounted P s) :
    ReturnedCached (s.step P c) := by
  refine State.step_induction (fun i => h.stepCall hacc) (fun s' t hs' j call d hcall hd x hx => ?_) h
  rw [State.calls_advance] at hcall
  exact State.grows_advance.cache x (hs' j call d hcall hd x hx)

end Returned

theorem returnedCached_exec (P : Inputs Obj Val) (calls : List (List Obj × Kwargs Val))
    (σ : List Caller) : ReturnedCached (exec P calls σ) := by
  have hboth : Accounted P (exec P calls σ) ∧ ReturnedCached (exec P calls σ) := by
    have hstep (s : State Obj Val) (c : Caller) (hs : Accounted P s ∧ ReturnedCached s) :
        Accounted P (s.step P c) ∧ ReturnedCached (s.step P c) :=
      ⟨hs.1.step, hs.2.step hs.1⟩
    refine run_invariant hstep ⟨.initial P calls, ?_⟩ σ
    intro i call d hcall hd
    obtain ⟨c, -, rfl⟩ : ∃ c, calls[i]? = some c ∧ ⟨c.1, c.2, .idle⟩ = call := by
      simpa [Cache.initial] using hcall
    cases hd
  exact hboth.2

/-! ### The counters -/

/-- Returns number of cached inputs. -/
def State.totalCachedInputs (s : State Obj Val) : Nat := s.cache.items.length

/-- Returns the total number of executed (cached) inputs. -/
def State.totalEvaluatedInputs (s : State Obj Val) : Nat := s.totalExecuted

section Counters

variable {P : Inputs Obj Val} {s s' : State Obj Val}

theorem length_le_of_subset {α : Type} {l l' : List α} (hl : l.Nodup) (h : l ⊆ l') :
    l.length ≤ l'.length :=
  (List.subperm_of_subset hl h).length_le

theorem mem_keys_cache {x : Obj} :
    x ∈ s.cache.items.map Prod.fst ↔ s.cache.contains x = true := by
  rw [Dict.contains_iff, List.mem_map]
  constructor
  · rintro ⟨⟨y, v⟩, hmem, rfl⟩
    exact ⟨v, Dict.mem_items_iff.mp hmem⟩
  · rintro ⟨v, hv⟩
    exact ⟨(x, v), Dict.mem_items_iff.mpr hv, rfl⟩

/-- What is cached was processed by a task that has been counted. -/
theorem totalCachedInputs_le (h : Attributed P s) (hacc : Accounted P s) :
    s.totalCachedInputs ≤ s.totalEvaluatedInputs := by
  have hsubset : s.cache.items.map Prod.fst ⊆ (s.tasks.filter Task.started).map Task.obj := by
    intro x hx
    obtain ⟨t, st, hobj, hst, hpast⟩ := h.cached x (mem_keys_cache.mp hx)
    obtain ⟨task, htask, rfl⟩ := State.exists_task_of_obj? hobj
    rw [State.stage?_of_task htask] at hst
    obtain rfl := Option.some.inj hst
    have hstarted : task.started = true := by
      unfold Task.started
      split
      · next hcreated => simp [hcreated, Stage.processed] at hpast
      · rfl
    exact List.mem_map_of_mem (List.mem_filter.mpr ⟨List.mem_of_getElem? htask, hstarted⟩)
  have hle := length_le_of_subset s.cache.nodup hsubset
  rw [List.length_map, List.length_map] at hle
  rw [State.totalEvaluatedInputs, hacc.total, List.countP_eq_length_filter]
  exact hle

theorem totalCachedInputs_mono (h : s.Grows s') : s.totalCachedInputs ≤ s'.totalCachedInputs := by
  have hsubset : s.cache.items.map Prod.fst ⊆ s'.cache.items.map Prod.fst :=
    fun x hx => mem_keys_cache.mpr (h.cache x (mem_keys_cache.mp hx))
  have hle := length_le_of_subset s.cache.nodup hsubset
  rwa [List.length_map, List.length_map] at hle

theorem totalExecuted_polls {c : Caller} {args : List Obj} {n : Nat}
    (hp : State.Polls P s c args s' n) : s'.totalExecuted = s.totalExecuted := by
  cases hp with
  | first _ => exact State.totalExecuted_schedule ..
  | again _ => rfl

theorem totalEvaluatedInputs_step {c : Caller} :
    s.totalEvaluatedInputs ≤ (s.step P c).totalEvaluatedInputs := by
  refine State.step_induction (I := fun s' => s.totalExecuted ≤ s'.totalExecuted)
    (fun i => ?_) (fun s' t hs' => hs'.trans ?_) le_rfl
  · refine State.stepCall_rule (Q := fun s' => s.totalExecuted ≤ s'.totalExecuted) fun s₁ hstep => ?_
    cases hstep with
    | idle _ => exact le_rfl
    | sleeps hp _ => exact (totalExecuted_polls hp).ge
    | raises hp _ => exact (totalExecuted_polls hp).ge
    | returns hp _ => exact (totalExecuted_polls hp).ge
  · refine State.advance_rule (Q := fun s'' => s'.totalExecuted ≤ s''.totalExecuted) le_rfl
      fun task s₁ _ hadv => ?_
    cases hadv with
    | start _ => exact Nat.le_succ _
    | sleeps hp _ => exact (totalExecuted_polls hp).ge
    | raises hp _ => exact (totalExecuted_polls hp).ge
    | returns hp _ => exact (totalExecuted_polls hp).ge
    | _ => exact le_rfl

theorem counters_of_resolved (h : Attributed P s) (hacc : Accounted P s) (hone : OneTask s)
    (hres : FullyResolved s) :
    s.totalCachedInputs = (requests s.history).dedup.length ∧
      s.totalEvaluatedInputs = (requests s.history).dedup.length := by
  have hpast (task : Task Obj Val) (hmem : task ∈ s.tasks) :
      s.cache.contains task.obj = true ∧ task.started = true := by
    obtain ⟨t, htask⟩ := List.mem_iff_getElem?.mp hmem
    obtain ⟨hcached, hpast⟩ := cached_of_resolved h hacc hone hres htask
    refine ⟨hcached, ?_⟩
    unfold Task.started
    split
    · next hcreated => simp [hcreated, Stage.processed] at hpast
    · rfl
  have hobjects : (s.tasks.map Task.obj).Perm (requests s.history).dedup :=
    (List.perm_ext_iff_of_nodup hone.nodup_objects (List.nodup_dedup _)).mpr fun x =>
      (hacc.mem_objects x).trans List.mem_dedup.symm
  have hkeys : (s.cache.items.map Prod.fst).Perm (s.tasks.map Task.obj) := by
    refine (List.perm_ext_iff_of_nodup s.cache.nodup hone.nodup_objects).mpr fun x => ?_
    rw [mem_keys_cache]
    constructor
    · intro hx
      obtain ⟨t, st, hobj, -⟩ := h.cached x hx
      obtain ⟨task, htask, rfl⟩ := State.exists_task_of_obj? hobj
      exact List.mem_map_of_mem (List.mem_of_getElem? htask)
    · intro hx
      obtain ⟨task, hmem, rfl⟩ := List.mem_map.mp hx
      exact (hpast task hmem).1
  constructor
  · rw [← (hkeys.trans hobjects).length_eq, List.length_map]
    rfl
  · rw [State.totalEvaluatedInputs, hacc.total,
      List.countP_eq_length.mpr fun task hmem => (hpast task hmem).2, ← hobjects.length_eq,
      List.length_map]

end Counters

/-- The counters never decrease, at most as many inputs are cached as were started, and after a
resolution in which no call raised or listed an unscheduled object twice, both count the inputs that
were requested. -/
theorem counters_agree_when_resolved (P : Inputs Obj Val) (calls : List (List Obj × Kwargs Val))
    (σ τ : List Caller) :
    (exec P calls σ).totalCachedInputs ≤ (exec P calls (σ ++ τ)).totalCachedInputs ∧
      (exec P calls σ).totalEvaluatedInputs ≤ (exec P calls (σ ++ τ)).totalEvaluatedInputs ∧
      (exec P calls σ).totalCachedInputs ≤ (exec P calls σ).totalEvaluatedInputs ∧
      (Along (State.step P) (fun s c => (s.toSchedule (s.requested P c)).Nodup) (initial calls) σ →
        FullyResolved (exec P calls σ) →
        (exec P calls σ).totalCachedInputs = (requests (exec P calls σ).history).dedup.length ∧
          (exec P calls σ).totalEvaluatedInputs =
            (requests (exec P calls σ).history).dedup.length) := by
  have hattributed := attributed_exec P calls σ
  have hacc := accounted_exec P calls σ
  have hrun : exec P calls (σ ++ τ) = run (State.step P) (exec P calls σ) τ := run_append _ _ _
  have hgrows : (exec P calls σ).Grows (exec P calls (σ ++ τ)) := by
    rw [hrun]
    exact run_invariant (I := (exec P calls σ).Grows)
      (fun s c hs => hs.trans State.grows_step) (.refl _) τ
  have htotal : (exec P calls σ).totalEvaluatedInputs ≤
      (exec P calls (σ ++ τ)).totalEvaluatedInputs := by
    have hstep (s : State Obj Val) (c : Caller)
        (hs : (exec P calls σ).totalEvaluatedInputs ≤ s.totalEvaluatedInputs) :
        (exec P calls σ).totalEvaluatedInputs ≤ (s.step P c).totalEvaluatedInputs :=
      hs.trans totalEvaluatedInputs_step
    rw [hrun]
    exact run_invariant hstep le_rfl τ
  refine ⟨totalCachedInputs_mono hgrows, htotal, totalCachedInputs_le hattributed hacc,
    fun hone hres => ?_⟩
  exact counters_of_resolved hattributed hacc
    (run_induction (fun s a hs hn => hs.step hn) (OneTask.initial calls) hone) hres

theorem counters_agree_when_resolved_readerChain :
    let s := exec readerChain [([true, false], .empty)] chainResolved
    s.totalCachedInputs = (requests s.history).dedup.length ∧
      s.totalEvaluatedInputs = (requests s.history).dedup.length :=
  (counters_agree_when_resolved readerChain _ chainResolved []).2.2.2 nodup_requested_readerChain
    resolved_readerChain

end NexusSdk.Cache
