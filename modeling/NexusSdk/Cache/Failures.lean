import NexusSdk.Cache.Steps

/-! When a call of `resolve` that returns has seen all its inputs succeed.  A waiter counts the keys
of `_cache`, which `process` also writes when it raises, and looks for failures among the recorded
tasks that are done.  So a failure is seen as soon as its task is recorded and done, and until then
the failed input counts as cached. -/

namespace NexusSdk.Cache

open Lib

variable {Obj Val : Type}

/-- Some `process` of `x` ended without an exception. -/
def Succeeded (history : List (Event Obj Val)) (x : Obj) : Prop :=
  ∃ t v, .processed t x (.ok v) ∈ history

/-- Some `process` of `x` raised, and none has ended without an exception. -/
def Failed (history : List (Event Obj Val)) (x : Obj) : Prop :=
  (∃ t e, .processed t x (.error e) ∈ history) ∧ ¬ Succeeded history x

/-- A call returns normally only after the `process` of each of its arguments succeeded. -/
def NotSwallowed (before : List (Event Obj Val)) : Event Obj Val → Prop
  | .returned _ args _ => ∀ x ∈ args, Succeeded before x
  | _ => True

theorem Succeeded.append {h : List (Event Obj Val)} {x : Obj} (hx : Succeeded h x)
    (h' : List (Event Obj Val)) : Succeeded (h ++ h') x := by
  obtain ⟨t, v, hmem⟩ := hx
  exact ⟨t, v, List.mem_append_left _ hmem⟩

variable [DecidableEq Obj]

/-- If all of `args` count as cached, the task recorded in `_scheduled` for each failed one is done
with an exception: it is neither suspended in `_context_close` nor a second task that replaced the
one that failed. -/
def FailuresVisible (s : State Obj Val) (args : List Obj) : Prop :=
  s.numCached args = args.length → ∀ x ∈ args, Failed s.history x →
    ∃ t e, s.scheduled.get? x = some t ∧ s.stage? t = some (.done (.error e))

/-- The inputs that caller `c` waits for or is going to request. -/
def State.awaited (P : Inputs Obj Val) (s : State Obj Val) : Caller → List Obj
  | .call i =>
    match s.calls[i]? with
    | some ⟨args, _, .idle⟩ | some ⟨args, _, .polling _⟩ => args
    | _ => []
  | .task t =>
    match s.tasks[t]? with
    | some task => if task.stage.early then P.readers task.obj else []
    | none => []

/-- What holds between the steps: a cached input was processed, a caller that is about to return has
seen its inputs succeed, and so have those that returned. -/
structure Tracked (P : Inputs Obj Val) (s : State Obj Val) : Prop where
  cached : ∀ x, s.cache.contains x = true → ∃ t r, .processed t x r ∈ s.history
  counted : ∀ c args, s.Sleeps P c args args.length → ∀ x ∈ args, Succeeded s.history x
  returned : Justified NotSwallowed s.history

namespace FailuresVisible

variable {s : State Obj Val} {t : Nat} {st : Stage Val} {args : List Obj}

theorem nil : FailuresVisible s [] := by
  intro _ x hx
  simp at hx

theorem setStage (h : FailuresVisible s args) (ht : ∀ e, s.stage? t ≠ some (.done (.error e))) :
    FailuresVisible (s.setStage t st) args := by
  intro hall x hx hfail
  obtain ⟨t', e, hget, hstage⟩ := h hall x hx hfail
  have hne : t' ≠ t := fun heq => ht e (heq ▸ hstage)
  exact ⟨t', e, hget, by simpa [hne] using hstage⟩

theorem schedule {c : Caller} {ys : List Obj} {kw : Kwargs Val} (h : FailuresVisible s args) :
    FailuresVisible (s.schedule c ys kw) args := by
  intro hall x hx hfail
  have hall' : s.numCached args = args.length := by simpa [State.numCached] using hall
  obtain ⟨t, e, hget, hstage⟩ := h hall' x hx (by simpa [Failed, Succeeded] using hfail)
  exact ⟨t, e, State.get?_schedule_of_some hget, State.stage?_schedule_of_some hstage⟩

/-- A poll that finds every argument cached and no failure has seen the arguments succeed. -/
theorem succeeded {P : Inputs Obj Val} (h : FailuresVisible s args) (hs : Tracked P s)
    (hnone : s.firstFailure P = none) (hall : s.numCached args = args.length) :
    ∀ x ∈ args, Succeeded s.history x := by
  intro x hx
  obtain ⟨t, r, hmem⟩ := hs.cached x (State.numCached_eq_length.mp hall x hx)
  cases r with
  | ok v => exact ⟨t, v, hmem⟩
  | error e =>
    by_contra hfail
    obtain ⟨t', e', hget, hstage⟩ := h hall x hx ⟨⟨t, e, hmem⟩, hfail⟩
    exact State.firstFailure_eq_none.mp hnone x t' e' hget hstage

end FailuresVisible

namespace Tracked

variable {P : Inputs Obj Val} {s s' : State Obj Val} {t i n : Nat} {x : Obj} {args : List Obj}
  {c : Caller}

theorem handOut (h : Tracked P s) : Tracked P s.handOut := ⟨h.1, h.2, h.3⟩

theorem log {e : Event Obj Val} (h : Tracked P s) (he : NotSwallowed s.history e) :
    Tracked P (s.log e) where
  cached x hx := by
    obtain ⟨t, r, hmem⟩ := h.cached x hx
    exact ⟨t, r, List.mem_append_left _ hmem⟩
  counted c args hc x hx := (h.counted c args hc x hx).append _
  returned := h.returned.snoc he

theorem setStage {st : Stage Val} (h : Tracked P s)
    (hst : ∀ x, s.obj? t = some x → st = .resolving (P.readers x).length →
      ∀ y ∈ P.readers x, Succeeded s.history y) : Tracked P (s.setStage t st) where
  cached := h.cached
  counted c args hc := by
    rcases State.sleeps_setStage hc with ⟨-, hc⟩ | ⟨-, hres, x, hx, rfl⟩
    · exact h.counted c args hc
    · exact hst x hx hres
  returned := h.returned

theorem setCall {st : CallState Val} (h : Tracked P s)
    (hst : ∀ call, s.calls[i]? = some call → st = .polling call.args.length →
      ∀ y ∈ call.args, Succeeded s.history y) : Tracked P (s.setCall i st) where
  cached := h.cached
  counted c args hc := by
    rcases State.sleeps_setCall hc with ⟨-, hc⟩ | ⟨-, hpoll, call, hcall, rfl⟩
    · exact h.counted c args hc
    · exact hst call hcall hpoll
  returned := h.returned

theorem schedule {kw : Kwargs Val} (h : Tracked P s) : Tracked P (s.schedule c args kw) where
  cached x hx := by
    obtain ⟨t, r, hmem⟩ := h.cached x (by simpa using hx)
    exact ⟨t, r, by simpa using hmem⟩
  counted c args hc x hx := by
    rw [State.history_schedule]
    exact (h.counted c args (State.sleeps_schedule hc) x hx).append _
  returned := by
    rw [State.history_schedule]
    exact h.returned.snoc trivial

theorem endProcess {r : Except PyExc (Option Val)} (h : Tracked P s) :
    Tracked P (s.endProcess P t x r) where
  cached y hy := by
    rw [State.cache_endProcess, Dict.contains_set, Bool.or_eq_true, decide_eq_true_iff] at hy
    rcases hy with rfl | hy
    · exact ⟨t, r, by simp⟩
    · obtain ⟨t', r', hmem⟩ := h.cached y hy
      exact ⟨t', r', List.mem_append_left _ hmem⟩
  counted c args hc x hx := (h.counted c args (State.sleeps_endProcess hc).2 x hx).append _
  returned := h.returned.snoc trivial

end Tracked

/-! ### One step -/

section Step

variable {P : Inputs Obj Val} {s s' : State Obj Val} {t i n : Nat} {args : List Obj} {c : Caller}
  {task : Task Obj Val}

theorem awaited_of_polls (hp : State.Polls P s c args s' n) : s.awaited P c = args := by
  cases hp with
  | first h =>
    cases c with
    | call i => rw [State.Arrives] at h; simp [State.awaited, h]
    | task t =>
      obtain ⟨x, h, -, rfl⟩ := h
      simp [State.awaited, h, Stage.early]
  | again h =>
    cases c with
    | call i => obtain ⟨kw, h⟩ := h; simp [State.awaited, h]
    | task t =>
      obtain ⟨x, kw, h, rfl⟩ := h
      simp [State.awaited, h, Stage.early]

theorem Tracked.polls (h : Tracked P s) (hv : FailuresVisible s (s.awaited P c))
    (hp : State.Polls P s c args s' n) :
    Tracked P s' ∧ FailuresVisible s' args ∧
      (n = args.length → ∀ x ∈ args, Succeeded s'.history x) := by
  rw [awaited_of_polls hp] at hv
  cases hp with
  | first _ =>
    refine ⟨h.schedule, hv.schedule, fun hn x hx => ?_⟩
    rw [List.eq_nil_of_length_eq_zero hn.symm] at hx
    simp at hx
  | again hs => exact ⟨h, hv, fun hn => h.counted c args (hn ▸ hs)⟩

theorem Tracked.stepCall (h : Tracked P s) (hv : FailuresVisible s (s.awaited P (.call i))) :
    Tracked P (s.stepCall P i) := by
  refine State.stepCall_rule fun s₁ hstep => ?_
  cases hstep with
  | idle _ => exact h
  | sleeps hp hw =>
    obtain ⟨-, hnone, rfl⟩ := State.waitForCache_sleeps hw
    obtain ⟨h', hv', -⟩ := h.polls hv hp
    refine h'.setCall fun call hcall hpoll => ?_
    rw [State.args_of_polls_call hp hcall] at hpoll ⊢
    exact hv'.succeeded h' hnone (CallState.polling.inj hpoll)
  | raises hp hw =>
    obtain ⟨h', -, -⟩ := h.polls hv hp
    exact Tracked.setCall (h'.handOut.log trivial) (by simp)
  | returns hp hw =>
    obtain ⟨hn, -⟩ := State.waitForCache_returns hw
    obtain ⟨h', -, hall⟩ := h.polls hv hp
    exact Tracked.setCall (h'.log (hall hn)) (by simp)

/-- What `advance` preserves: a task that has yet to poll finds failures visible. -/
def Advanceable (P : Inputs Obj Val) (t : Nat) (s : State Obj Val) : Prop :=
  Tracked P s ∧ FailuresVisible s (s.awaited P (.task t))

/-- A task that has begun to evaluate, or failed, does not poll again. -/
theorem Advanceable.late (h : Tracked P s) (hs : (s.stage? t).any Stage.early = false) :
    Advanceable P t s := by
  refine ⟨h, ?_⟩
  cases htask : s.tasks[t]? with
  | none => simpa [State.awaited, htask] using FailuresVisible.nil
  | some task =>
    rw [State.stage?_of_task htask, Option.any_some] at hs
    simpa [State.awaited, htask, hs] using FailuresVisible.nil

theorem Advanceable.early {st : Stage Val} (h : Tracked P s) (htask : s.tasks[t]? = some task)
    (hv : FailuresVisible s (P.readers task.obj))
    (hdone : ∀ e, task.stage ≠ .done (.error e))
    (hst : st = .resolving (P.readers task.obj).length →
      ∀ y ∈ P.readers task.obj, Succeeded s.history y) : Advanceable P t (s.setStage t st) := by
  refine ⟨h.setStage fun x hx hres => ?_, ?_⟩
  · obtain rfl : task.obj = x := by simpa [State.obj?_of_task htask] using hx
    exact hst hres
  · have hv' : FailuresVisible (s.setStage t st) (P.readers task.obj) :=
      hv.setStage (by simpa [State.stage?_of_task htask] using hdone)
    cases hst : st.early
    · simpa [State.awaited, htask, hst] using FailuresVisible.nil
    · simpa [State.awaited, htask, hst] using hv'

theorem Advanceable.advance (h : Advanceable P t s) : Advanceable P t (s.advance P t) := by
  refine State.advance_rule h fun task s₁ htask hadv => ?_
  obtain ⟨h, hv⟩ := h
  have hstage := State.stage?_of_task htask
  have hreaders (hearly : task.stage.early) : FailuresVisible s (P.readers task.obj) := by
    simpa [State.awaited, htask, hearly] using hv
  cases hadv with
  | start hc =>
    have hs : Tracked P { s with totalExecuted := s.totalExecuted + 1 } := ⟨h.1, h.2, h.3⟩
    exact .early hs htask (hreaders (by simp [hc, Stage.early])) (by simp [hc]) (by simp)
  | @tick st htick =>
    cases hst : st.early with
    | true =>
      refine .early h htask (hreaders (htick.early_eq.trans hst)) htick.ne_done ?_
      exact fun hres => absurd hres htick.ne_resolving
    | false =>
      refine .late (h.setStage fun _ _ hres => absurd hres htick.ne_resolving) ?_
      simp [hstage, hst]
  | opened hc _ =>
    have hv' := hreaders (by simp [hc, Stage.early])
    exact .early h htask hv' (by simp [hc]) (by simp)
  | openRaised hc _ => exact .late (h.setStage (by simp)) (by simp [hstage, Stage.early])
  | found hc _ => exact .late h.endProcess (by simp [hstage, Stage.early])
  | sleeps hp hw =>
    obtain ⟨-, hnone, rfl⟩ := State.waitForCache_sleeps hw
    obtain ⟨htask', hpolls⟩ := State.task_of_polls htask hp
    obtain ⟨h', hv', -⟩ := h.polls hv hp
    refine .early h' htask' hv' ?_ fun hres => ?_
    · rcases hpolls with hpolls | hpolls <;> simp [hpolls]
    · exact hv'.succeeded h' hnone (Stage.resolving.inj hres)
  | raises hp hw =>
    obtain ⟨htask', -⟩ := State.task_of_polls htask hp
    obtain ⟨h', -, -⟩ := h.polls hv hp
    refine .late (Tracked.endProcess (h'.handOut.log ?_)) ?_
    swap
    · simp [State.stage?_of_task htask', Stage.early]
    exact trivial
  | returns hp hw =>
    obtain ⟨hn, -⟩ := State.waitForCache_returns hw
    obtain ⟨htask', -⟩ := State.task_of_polls htask hp
    obtain ⟨h', -, hall⟩ := h.polls hv hp
    refine .late (Tracked.setStage (Tracked.log (h'.log ?_) ?_) (by simp))
      (by simp [State.stage?_of_task htask', Stage.early])
    · exact hall hn
    · exact trivial
  | @evaluated kw v hc ho =>
    have hs : Tracked P { s with data := Function.update s.data task.obj v } := ⟨h.1, h.2, h.3⟩
    exact .late hs.endProcess (by simp [hstage, Stage.early])
  | evaluateRaised hc _ => exact .late h.endProcess (by simp [hstage, Stage.early])
  | closed hc _ => exact .late (h.setStage (by simp)) (by simp [hstage, Stage.early])
  | closeRaised hc _ => exact .late (h.setStage (by simp)) (by simp [hstage, Stage.early])

theorem Tracked.step (h : Tracked P s) (hv : FailuresVisible s (s.awaited P c)) :
    Tracked P (s.step P c) := by
  cases c with
  | call i => exact h.stepCall hv
  | task t =>
    have hadv : Advanceable P t (s.advance P t) := Advanceable.advance ⟨h, hv⟩
    exact (State.settle_induction (fun s hs _ => hs.advance) 4 hadv).1

end Step

theorem Tracked.initial (P : Inputs Obj Val) (calls : List (List Obj × Kwargs Val)) :
    Tracked P (initial calls) where
  cached x hx := by simp [Cache.initial] at hx
  counted _ _ hc := absurd hc State.not_sleeps_initial
  returned := .nil _

/-- In a run in which every step finds the failures visible among the inputs that its caller awaits,
no call of `resolve` returns before all its inputs have succeeded. -/
theorem resolve_swallows_no_visible_failure (P : Inputs Obj Val)
    (calls : List (List Obj × Kwargs Val)) (σ : List Caller)
    (h : Along (State.step P) (fun s c => FailuresVisible s (s.awaited P c)) (initial calls) σ) :
    Justified NotSwallowed (exec P calls σ).history := by
  have hrun : Tracked P (exec P calls σ) :=
    run_induction (fun s a hs hv => hs.step hv) (Tracked.initial P calls) h
  exact hrun.returned

def failingReader (n : Nat) : Inputs Unit String where
  cacheKey _ := "key"
  classAlias _ := "orders"
  readers _ := []
  contextOpen _ _ := ⟨0, .ok ()⟩
  evaluate _ _ _ := ⟨0, .error (.raised valueError "unreadable")⟩
  contextClose _ _ := ⟨n, .ok ()⟩
  errorMap := shippedErrorMap

theorem resolve_swallows_no_visible_failure_failingReader :
    Justified NotSwallowed
      (exec (failingReader 0) [([()], .empty)] [.call 0, .task 0, .call 0]).history := by
  refine resolve_swallows_no_visible_failure _ _ _ ⟨?_, ?_, ?_, trivial⟩
  · intro hall
    simp [initial, State.awaited, State.numCached] at hall
  · exact FailuresVisible.nil
  · intro _ x _ _
    exact ⟨0, .raised valueError "unreadable", rfl, rfl⟩

/-- The reader has failed and still waits in `_context_close` when the call counts it as cached; the
call then returns. -/
theorem resolve_swallows_failure_during_close :
    ¬ Justified NotSwallowed
      (exec (failingReader 1) [([()], .empty)] [.call 0, .task 0, .call 0, .call 0]).history := by
  intro h
  obtain ⟨t, v, hmem⟩ := h
    [.resolve (.call 0) [()], .resolve (.task 0) [], .returned (.task 0) [] .empty,
      .evaluate 0 () .empty, .processed 0 () (.error (.raised valueError "unreadable"))]
    (.returned (.call 0) [()] (.ofList [("orders", none)])) [] rfl () (by simp)
  simp at hmem

end NexusSdk.Cache
