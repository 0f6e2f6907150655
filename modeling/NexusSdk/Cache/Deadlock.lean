import NexusSdk.Cache.Once
import NexusSdk.Cache.Termination

/-! Deadlock freedom of `resolve`.  A caller is released by two facts that are kept apart, the
membership of its inputs in `_cache` and the exceptions of the scheduled tasks; in a state in which
no task can go on, one of them releases every caller. -/

namespace NexusSdk.Cache

open Lib

variable {Obj Val : Type} [DecidableEq Obj]

namespace State

/-- The next poll of the task is idle: the loop of its `resolve` goes on after it. -/
def IdlePoll (P : Inputs Obj Val) (s : State Obj Val) (task : Task Obj Val) : Prop :=
  ∃ n m, task.stage = .resolving n ∧
    s.waitForCache P (P.readers task.obj) n = .sleeps m ∧ m ≠ (P.readers task.obj).length

/-- Task `t` can take a step other than an idle poll, and the step brings it closer to its end. -/
def Moves (P : Inputs Obj Val) (s : State Obj Val) (t : Nat) : Prop :=
  ∃ task, s.tasks[t]? = some task ∧ (∀ r, task.stage ≠ .done r) ∧ ¬ s.IdlePoll P task ∧
    (s.step P (.task t)).left P t < s.left P t

/-- The next completed poll of the call makes it return or raise, whatever the others do during the
sleep that belongs to the poll. -/
def PollEnds (P : Inputs Obj Val) (s : State Obj Val) (i : Nat) : Prop :=
  ∀ σ, (run (State.step P) s (.call i :: (σ ++ [.call i]))).CallEnded i

end State

variable {P : Inputs Obj Val} {s : State Obj Val} {t i n : Nat} {x : Obj} {args : List Obj}
  {c : Caller} {task : Task Obj Val}

/-! ### What a task that can go on does -/

theorem idlePoll_of_waits (hacc : Accounted P s) (htask : s.tasks[t]? = some task)
    (hw : Waits P s task) (hdone : ∀ r, task.stage ≠ .done r) : s.IdlePoll P task := by
  rcases hw with ⟨r, hr⟩ | ⟨⟨n, hn⟩, hnone, hwait⟩
  · exact absurd hr (hdone r)
  · have hlength : n ≠ (P.readers task.obj).length := by
      rintro rfl
      refine hwait (hacc.counted (.task t) _ ⟨task.obj, task.kwargs, ?_, rfl⟩)
      rw [htask, ← hn]
    refine ⟨n, s.numCached (P.readers task.obj), hn, ?_, ?_⟩
    · simp only [State.waitForCache, if_neg hlength, hnone]
    · rwa [Ne, State.numCached_eq_length]

/-- A step other than an idle poll brings the task closer to its end. -/
theorem moves_of_not_idle (hacc : Accounted P s) (htask : s.tasks[t]? = some task)
    (hdone : ∀ r, task.stage ≠ .done r) (hidle : ¬ s.IdlePoll P task) : s.Moves P t := by
  refine ⟨task, htask, hdone, hidle, ?_⟩
  rcases left_step (P := P) htask with hlt | ⟨-, hwaits⟩
  · exact hlt
  · exact absurd (idlePoll_of_waits hacc htask hwaits hdone) hidle

/-- A poll that finds a failure, or all inputs in the cache, is not idle. -/
theorem moves_of_released (hacc : Accounted P s) (htask : s.tasks[t]? = some task)
    (hn : task.stage = .resolving n)
    (hfree : s.firstFailure P ≠ none ∨ ∀ y ∈ P.readers task.obj, s.cache.contains y = true) :
    s.Moves P t := by
  refine moves_of_not_idle hacc htask (by simp [hn]) ?_
  rintro ⟨k, m, -, hw, hm⟩
  obtain ⟨-, hnone, rfl⟩ := State.waitForCache_sleeps hw
  have hall := hfree.resolve_left fun hne => hne hnone
  exact hm (State.numCached_eq_length.mpr hall)

/-- If no failure is recorded, a scheduled input is cached or some task can go on: the task of the
input itself, or one of an input that it waits for. -/
theorem cached_or_moves (hac : Acyclic P.readers) (hacc : Accounted P s) (hprog : Progressing P s)
    (hnone : s.firstFailure P = none) (hx : s.scheduled.contains x = true) :
    s.cache.contains x = true ∨ ∃ t, s.Moves P t := by
  induction x using WellFounded.induction hac with
  | _ x ih =>
  obtain ⟨t, ht⟩ := Dict.contains_iff.mp hx
  obtain ⟨task, htask, hobj⟩ := State.exists_task_of_obj? (hacc.recorded x t ht)
  by_cases hdone : ∃ r, task.stage = .done r
  · obtain ⟨r, hr⟩ := hdone
    have hrecorded : s.RecordedDone x := ⟨t, r, ht, by rw [State.stage?_of_task htask, hr]⟩
    have hall : ∀ y ∈ [x], s.RecordedDone y := by simpa using hrecorded
    exact .inl (cached_of_done hacc hprog hall hnone x (by simp))
  rw [not_exists] at hdone
  by_cases hidle : s.IdlePoll P task
  · obtain ⟨n, m, hn, -, -⟩ := hidle
    have hscheduled := hprog.tasks t task htask
    rw [hn] at hscheduled
    right
    by_cases hall : ∀ y ∈ P.readers task.obj, s.cache.contains y = true
    · exact ⟨t, moves_of_released hacc htask hn (.inr hall)⟩
    · push Not at hall
      obtain ⟨y, hy, hcached⟩ := hall
      rcases ih y (hobj ▸ hy) (hscheduled y hy) with h | h
      · exact absurd h hcached
      · exact h
  · exact .inr ⟨t, moves_of_not_idle hacc htask hdone hidle⟩

/-! ### What a call that waits does -/

theorem sleeps_step_other (hc : c ≠ .call i) (h : s.Sleeps P (.call i) args n) :
    (s.step P c).Sleeps P (.call i) args n := by
  obtain ⟨kw, hcall⟩ := h
  exact ⟨kw, (State.call_step_other hc).trans hcall⟩

theorem callEnded_step (h : s.CallEnded i) : (s.step P c).CallEnded i := by
  obtain ⟨call, hcall, hended⟩ := h
  exact ⟨call, State.call_step_ended hcall hended, hended⟩

omit [DecidableEq Obj] in
theorem callEnded_setCall {st : CallState Val} {call : Call Obj Val}
    (hcall : s.calls[i]? = some call) (hst : st.ended = true) : (s.setCall i st).CallEnded i :=
  ⟨{ call with state := st }, by simp [hcall], hst⟩

/-- A call that has counted all its inputs as cached returns when it goes on. -/
theorem callEnded_of_counted (h : s.Sleeps P (.call i) args args.length) :
    (s.step P (.call i)).CallEnded i := by
  obtain ⟨kw, hcall⟩ := h
  have hstep : s.step P (.call i) = s.awaitCall P i ⟨args, kw, .polling args.length⟩ args.length := by
    simp only [State.step, State.stepCall, hcall]
  rw [hstep]
  simp only [State.awaitCall, State.waitForCache, if_true]
  exact callEnded_setCall (s := s.log _) hcall rfl

theorem counted_or_ended_step (h : s.CallEnded i ∨ s.Sleeps P (.call i) args args.length) :
    (s.step P c).CallEnded i ∨ (s.step P c).Sleeps P (.call i) args args.length := by
  rcases h with h | h
  · exact .inl (callEnded_step h)
  · by_cases hc : c = .call i
    · subst hc
      exact .inl (callEnded_of_counted h)
    · exact .inr (sleeps_step_other hc h)

/-- A poll that finds a failure, or all inputs in the cache, is the last one. -/
theorem pollEnds_of_released (h : s.Sleeps P (.call i) args n)
    (hfree : s.firstFailure P ≠ none ∨ ∀ x ∈ args, s.cache.contains x = true) :
    s.PollEnds P i := by
  have hpoll : (s.step P (.call i)).CallEnded i ∨
      (s.step P (.call i)).Sleeps P (.call i) args args.length := by
    obtain ⟨kw, hcall⟩ := h
    have hstep : s.step P (.call i) = s.awaitCall P i ⟨args, kw, .polling n⟩ n := by
      simp only [State.step, State.stepCall, hcall]
    rw [hstep]
    unfold State.awaitCall
    cases hw : s.waitForCache P args n with
    | returns d => exact .inl (callEnded_setCall (s := s.log _) hcall rfl)
    | raises e => exact .inl (callEnded_setCall (s := s.handOut.log _) hcall rfl)
    | sleeps m =>
      obtain ⟨-, hnone, rfl⟩ := State.waitForCache_sleeps hw
      have hall := hfree.resolve_left fun hne => hne hnone
      exact .inr ⟨kw, by simp [hcall, State.numCached_eq_length.mpr hall]⟩
  intro σ
  rw [run_cons, run_append, run_cons, run_nil]
  have hlast : (run (State.step P) (s.step P (.call i)) σ).CallEnded i ∨
      (run (State.step P) (s.step P (.call i)) σ).Sleeps P (.call i) args args.length :=
    run_invariant
      (I := fun s : State Obj Val => s.CallEnded i ∨ s.Sleeps P (.call i) args args.length)
      (fun _ _ => counted_or_ended_step) hpoll σ
  rcases hlast with hended | hcounted
  · exact callEnded_step hended
  · exact callEnded_of_counted hcounted

/-! ### Deadlock freedom -/

theorem released_or_moves (hac : Acyclic P.readers) (hacc : Accounted P s)
    (hprog : Progressing P s) (hargs : ∀ x ∈ args, s.scheduled.contains x = true) :
    (s.firstFailure P ≠ none ∨ ∀ x ∈ args, s.cache.contains x = true) ∨ ∃ t, s.Moves P t := by
  by_cases hmoves : ∃ t, s.Moves P t
  · exact .inr hmoves
  left
  by_cases hnone : s.firstFailure P = none
  · right
    intro x hx
    exact (cached_or_moves hac hacc hprog hnone (hargs x hx)).resolve_right hmoves
  · exact .inl hnone

theorem booked_exec (P : Inputs Obj Val) (calls : List (List Obj × Kwargs Val))
    (σ : List Caller) : Accounted P (exec P calls σ) ∧ Progressing P (exec P calls σ) :=
  run_invariant (I := fun s => Accounted P s ∧ Progressing P s) (fun _ _ => booked_step)
    ⟨.initial P calls, .initial P calls⟩ σ

/-- In every reachable state in which a call of `resolve` waits, some task can take a step other than
an idle poll, which brings it closer to its end, or the next completed poll of the call ends it; if it
is the call that a task makes for its readers, some task can.  Every recorded task that is done is
cached or done with an exception. -/
theorem resolve_deadlock_free (hac : Acyclic P.readers) (calls : List (List Obj × Kwargs Val))
    (σ : List Caller) :
    (∀ i args n, (exec P calls σ).Sleeps P (.call i) args n →
      (∃ t, (exec P calls σ).Moves P t) ∨ (exec P calls σ).PollEnds P i) ∧
    (∀ t args n, (exec P calls σ).Sleeps P (.task t) args n →
      ∃ t', (exec P calls σ).Moves P t') ∧
    ∀ x t r, (exec P calls σ).scheduled.get? x = some t →
      (exec P calls σ).stage? t = some (.done r) →
      (exec P calls σ).cache.contains x = true ∨ ∃ e, r = .error e := by
  obtain ⟨hacc, hprog⟩ := booked_exec P calls σ
  generalize exec P calls σ = s at hacc hprog
  refine ⟨fun i args n hsleeps => ?_, fun t args n hsleeps => ?_, fun x t r hget hdone => ?_⟩
  · obtain ⟨kw, hcall⟩ := hsleeps
    rcases released_or_moves hac hacc hprog (hprog.calls i _ hcall) with hfree | hmoves
    · exact .inr (pollEnds_of_released ⟨kw, hcall⟩ hfree)
    · exact .inl hmoves
  · obtain ⟨x, kw, htask, rfl⟩ := hsleeps
    rcases released_or_moves hac hacc hprog (hprog.tasks t _ htask) with hfree | hmoves
    · exact ⟨t, moves_of_released hacc htask rfl hfree⟩
    · exact hmoves
  · obtain ⟨task, htask, rfl⟩ := State.exists_task_of_obj? (hacc.recorded x t hget)
    have hachieved := hprog.tasks t task htask
    rw [State.stage?_of_task htask] at hdone
    rw [Option.some.inj hdone] at hachieved
    cases r with
    | ok v => exact .inl hachieved
    | error e => exact .inr ⟨e, rfl⟩

/-- The call has counted nothing, and the outer reader waits for the inner one, which can start. -/
theorem resolve_deadlock_free_readerChain :
    let s := exec readerChain [([true, false], .empty)] [.call 0, .task 0]
    (∀ i args n, s.Sleeps readerChain (.call i) args n →
      (∃ t, s.Moves readerChain t) ∨ s.PollEnds readerChain i) ∧
    (∀ t args n, s.Sleeps readerChain (.task t) args n → ∃ t', s.Moves readerChain t') ∧
    ∀ x t r, s.scheduled.get? x = some t → s.stage? t = some (.done r) →
      s.cache.contains x = true ∨ ∃ e, r = .error e :=
  resolve_deadlock_free (.of_rank (fun x => if x then 1 else 0) (by decide)) _ _

end NexusSdk.Cache
