import NexusSdk.Cache.Steps

/-! Where the exceptions of a run come from.  Every exception with which a task ends, and every one
that a `resolve` call raises, was made by nested `resolve` calls and `__aexit__` from one that a
hook of a task that has ended raised in the run. -/

namespace NexusSdk.Cache

open Lib

variable {Obj Val : Type}

/-- A hook of task `t` has raised `origin`. -/
inductive HookRaised (P : Inputs Obj Val) (s : State Obj Val) (t : Nat) (origin : PyExc) : Prop
  | opening {x : Obj} (hx : s.obj? t = some x) (hdone : s.stage? t = some (.done (.error origin)))
      (h : (P.contextOpen t x).outcome = .error origin)
  | evaluating {x : Obj} {kw : Kwargs Val} (hx : s.obj? t = some x)
      (hmem : .evaluate t x kw ∈ s.history) (hend : .processed t x (.error origin) ∈ s.history)
      (h : (P.evaluate t x kw).outcome = .error origin)
  | closing {x : Obj} {r : Except PyExc (Option Val)} (hx : s.obj? t = some x)
      (hmem : .processed t x r ∈ s.history)
      (hdone : s.stage? t = some (.done (.error (State.closeError origin r))))
      (h : (P.contextClose t x).outcome = .error origin)

/-- `e` is `origin`, or what `__aexit__` and nested `resolve` calls made of it. -/
inductive Stems (P : Inputs Obj Val) (origin : PyExc) : PyExc → Prop
  | hook : Stems P origin origin
  | during (pending : PyExc) : Stems P origin (origin.during pending)
  | failure {e : PyExc} (x : Obj) (h : Stems P origin e) : Stems P origin (State.failure P x e)
  | renewed {e : PyExc} (h : Stems P origin e) (hcancelled : e.isCancelled = true) :
      Stems P origin .newCancelled

/-- `e` stems from what a hook of a task raised, and the task ended with it. -/
def Rooted (P : Inputs Obj Val) (s : State Obj Val) (e : PyExc) : Prop :=
  ∃ t e' origin, s.stage? t = some (.done (.error e')) ∧ e'.cls = origin.cls ∧
    HookRaised P s t origin ∧ Stems P origin e

/-- What holds of task `t` of object `x` at a stage. -/
def StageRooted (P : Inputs Obj Val) (s : State Obj Val) (t : Nat) (x : Obj) : Stage Val → Prop
  | .evaluating kw _ => .evaluate t x kw ∈ s.history
  | .closing r _ => .processed t x r ∈ s.history ∧
      ∀ e, r = .error e → HookRaised P s t e ∨ Rooted P s e
  | .done r => ∀ e, r = .error e → Rooted P s e
  | _ => True

/-- A `resolve` call raises `r` for a task that is done with an exception. -/
def RaisedFor (P : Inputs Obj Val) (s : State Obj Val) (r : PyExc) : Prop :=
  ∃ t x e, s.stage? t = some (.done (.error e)) ∧
    (r = State.failure P x e ∨ e.isCancelled = true ∧ r = .newCancelled)

structure RootsKept (P : Inputs Obj Val) (s : State Obj Val) : Prop where
  tasks : ∀ t task, s.tasks[t]? = some task → StageRooted P s t task.obj task.stage
  raised : ∀ c r, .raised c r ∈ s.history → RaisedFor P s r

/-! ### What later states keep -/

/-- `s'` has the objects and the events of `s`, and its failed tasks. -/
structure Later (s s' : State Obj Val) : Prop where
  objects : ∀ t x, s.obj? t = some x → s'.obj? t = some x
  history : ∀ e ∈ s.history, e ∈ s'.history
  ended : ∀ t e, s.stage? t = some (.done (.error e)) → s'.stage? t = some (.done (.error e))

section Later

variable {P : Inputs Obj Val} {s s' s'' : State Obj Val} {t : Nat} {x : Obj} {e origin : PyExc}
  {st : Stage Val}

theorem Later.refl (s : State Obj Val) : Later s s := ⟨fun _ _ => id, fun _ => id, fun _ _ => id⟩

theorem Later.trans (h : Later s s') (h' : Later s' s'') : Later s s'' :=
  ⟨fun t x hx => h'.objects t x (h.objects t x hx), fun e he => h'.history e (h.history e he),
    fun t e he => h'.ended t e (h.ended t e he)⟩

theorem HookRaised.later (h : HookRaised P s t origin) (hl : Later s s') :
    HookRaised P s' t origin := by
  cases h with
  | opening hx hdone h => exact .opening (hl.objects t _ hx) (hl.ended t _ hdone) h
  | evaluating hx hmem hend h =>
    exact .evaluating (hl.objects t _ hx) (hl.history _ hmem) (hl.history _ hend) h
  | closing hx hmem hdone h =>
    exact .closing (hl.objects t _ hx) (hl.history _ hmem) (hl.ended t _ hdone) h

theorem Rooted.later (h : Rooted P s e) (hl : Later s s') : Rooted P s' e := by
  obtain ⟨t, e', origin, hdone, hcls, hraised, hstems⟩ := h
  exact ⟨t, e', origin, hl.ended t e' hdone, hcls, hraised.later hl, hstems⟩

theorem StageRooted.later (h : StageRooted P s t x st) (hl : Later s s') :
    StageRooted P s' t x st := by
  cases st with
  | evaluating kw n => exact hl.history _ h
  | closing r n =>
    exact ⟨hl.history _ h.1, fun e he => (h.2 e he).imp (·.later hl) (·.later hl)⟩
  | done r => exact fun e he => (h e he).later hl
  | _ => trivial

theorem RaisedFor.later {r : PyExc} (h : RaisedFor P s r) (hl : Later s s') :
    RaisedFor P s' r := by
  obtain ⟨t, x, e, hdone, hr⟩ := h
  exact ⟨t, x, e, hl.ended t e hdone, hr⟩

theorem later_setStage (ht : ∀ e, s.stage? t ≠ some (.done (.error e))) :
    Later s (s.setStage t st) where
  objects t' x hx := by rwa [State.obj?_setStage]
  history e he := he
  ended t' e he := by
    have hne : t' ≠ t := by
      rintro rfl
      exact ht e he
    rwa [State.stage?_setStage, if_neg hne]

/-- Only a task that is not done goes on. -/
theorem State.Advances.ne_done [DecidableEq Obj] {task : Task Obj Val}
    (h : State.Advances P s t task s') (htask : s.tasks[t]? = some task) (e : PyExc) :
    task.stage ≠ .done (.error e) := by
  have hpolls {s₁ : State Obj Val} {n : Nat}
      (hp : State.Polls P s (.task t) (P.readers task.obj) s₁ n) :
      task.stage ≠ .done (.error e) := by
    rcases (State.task_of_polls htask hp).2 with hstage | hstage <;> simp [hstage]
  cases h with
  | tick htick => exact htick.ne_done e
  | sleeps hp _ => exact hpolls hp
  | raises hp _ => exact hpolls hp
  | returns hp _ => exact hpolls hp
  | start h => simp [h]
  | opened h _ => simp [h]
  | openRaised h _ => simp [h]
  | found h _ => simp [h]
  | evaluated h _ => simp [h]
  | evaluateRaised h _ => simp [h]
  | closed h _ => simp [h]
  | closeRaised h _ => simp [h]

theorem later_log {ev : Event Obj Val} : Later s (s.log ev) :=
  ⟨fun _ _ => id, fun _ he => List.mem_append_left _ he, fun _ _ => id⟩

theorem later_handOut : Later s s.handOut := ⟨fun _ _ => id, fun _ => id, fun _ _ => id⟩

theorem later_data {d : Obj → Option Val} : Later s { s with data := d } :=
  ⟨fun _ _ => id, fun _ => id, fun _ _ => id⟩

theorem later_totalExecuted {k : Nat} : Later s { s with totalExecuted := k } :=
  ⟨fun _ _ => id, fun _ => id, fun _ _ => id⟩

theorem later_setCall {i : Nat} {cst : CallState Val} : Later s (s.setCall i cst) :=
  ⟨fun _ _ => id, fun _ => id, fun _ _ => id⟩

theorem later_polls [DecidableEq Obj] {c : Caller} {args : List Obj} {n : Nat}
    (hp : State.Polls P s c args s' n) : Later s s' := by
  cases hp with
  | again _ => exact .refl s
  | first _ =>
    exact ⟨fun _ _ => State.obj?_schedule_of_some, fun e he => by simp [he],
      fun _ _ => State.stage?_schedule_of_some⟩

end Later

/-! ### Steps -/

namespace RootsKept

variable {P : Inputs Obj Val} {s s' : State Obj Val} {t i n : Nat} {x : Obj} {args : List Obj}
  {c : Caller} {task : Task Obj Val} {e : PyExc}

/-- A state with the tasks of `s` and no new exception raised. -/
theorem of_tasks (h : RootsKept P s) (hl : Later s s') (htasks : s'.tasks = s.tasks)
    (hraised : ∀ c r, .raised c r ∈ s'.history → .raised c r ∈ s.history) : RootsKept P s' where
  tasks t task ht := (h.tasks t task (htasks ▸ ht)).later hl
  raised c r hmem := (h.raised c r (hraised c r hmem)).later hl

theorem setStage {st : Stage Val} (h : RootsKept P s) (htask : s.tasks[t]? = some task)
    (ht : ∀ e, s.stage? t ≠ some (.done (.error e)))
    (hst : StageRooted P (s.setStage t st) t task.obj st) : RootsKept P (s.setStage t st) where
  tasks t' task' ht' := by
    obtain ⟨old, hold, hobj, -, hstage⟩ := State.task_setStage ht'
    rw [hobj, hstage]
    split
    · next heq =>
      subst heq
      obtain rfl := Option.some.inj (htask.symm.trans hold)
      exact hst
    · exact (h.tasks t' old hold).later (later_setStage ht)
  raised c r hmem := (h.raised c r hmem).later (later_setStage ht)

theorem log {ev : Event Obj Val} (h : RootsKept P s)
    (hev : ∀ c r, ev = .raised c r → RaisedFor P s r) : RootsKept P (s.log ev) where
  tasks t task ht := (h.tasks t task ht).later later_log
  raised c r hmem := by
    rcases List.mem_append.mp hmem with hmem | hmem
    · exact (h.raised c r hmem).later later_log
    · exact (hev c r (List.mem_singleton.mp hmem).symm).later later_log

theorem handOut (h : RootsKept P s) : RootsKept P s.handOut :=
  h.of_tasks later_handOut rfl fun _ _ => id

/-- The exception that a waiter raises is that of a task that is done. -/
theorem logRaised {r : PyExc} (h : RootsKept P s) (hr : RaisedFor P s r) :
    RootsKept P (s.handOut.log (.raised c r)) :=
  h.handOut.log fun _ _ heq => (Event.raised.inj heq).2 ▸ hr.later later_handOut

theorem setCall {cst : CallState Val} (h : RootsKept P s) : RootsKept P (s.setCall i cst) :=
  h.of_tasks later_setCall rfl fun _ _ => id

theorem data {d : Obj → Option Val} (h : RootsKept P s) : RootsKept P { s with data := d } :=
  h.of_tasks later_data rfl fun _ _ => id

/-- What ended a task stems from a hook. -/
theorem rooted_done (h : RootsKept P s) (hdone : s.stage? t = some (.done (.error e))) :
    Rooted P s e := by
  obtain ⟨task, htask, hstage⟩ := Option.map_eq_some_iff.mp hdone
  have hrooted := h.tasks t task htask
  rw [hstage] at hrooted
  exact hrooted e rfl

/-- One more level: what a `resolve` call raises for a task stems from where its exception does. -/
theorem rooted_raised {r : PyExc} (h : RootsKept P s) (hr : RaisedFor P s r) : Rooted P s r := by
  obtain ⟨t, x, e, hdone, hr⟩ := hr
  obtain ⟨t', e', origin, hdone', hcls, hraised, hstems⟩ := h.rooted_done hdone
  refine ⟨t', e', origin, hdone', hcls, hraised, ?_⟩
  rcases hr with rfl | ⟨hcancelled, rfl⟩
  · exact hstems.failure x
  · exact hstems.renewed hcancelled

variable [DecidableEq Obj]

theorem endProcess {r : Except PyExc (Option Val)} (h : RootsKept P s)
    (htask : s.tasks[t]? = some task) (ht : ∀ e, s.stage? t ≠ some (.done (.error e)))
    (hr : ∀ e, r = .error e →
      HookRaised P (s.endProcess P t task.obj r) t e ∨ Rooted P s e) :
    RootsKept P (s.endProcess P t task.obj r) := by
  have hlog : RootsKept P (s.log (.processed t task.obj r)) := h.log (by simp)
  have hset : RootsKept P ((s.log (.processed t task.obj r)).setStage t
      (.closing r (P.contextClose t task.obj).suspensions)) := by
    refine hlog.setStage htask ht ⟨by simp, fun e he => ?_⟩
    refine (hr e he).imp (fun hraised => hraised.later ?_) fun hrooted => hrooted.later ?_
    · exact ⟨fun _ _ => id, fun _ => id, fun _ _ => id⟩
    · exact later_log.trans (later_setStage ht)
  exact hset.of_tasks ⟨fun _ _ => id, fun _ => id, fun _ _ => id⟩ rfl fun _ _ => id

theorem polls (h : RootsKept P s) (hp : State.Polls P s c args s' n) : RootsKept P s' := by
  have hlater := later_polls hp
  cases hp with
  | again _ => exact h
  | first _ =>
    refine ⟨fun t task ht => ?_, fun c r hmem => ?_⟩
    · rcases State.task_schedule ht with ht | ⟨k, y, -, -, rfl⟩
      · exact (h.tasks t task ht).later hlater
      · trivial
    · exact (h.raised c r (by simpa using hmem)).later hlater

omit [DecidableEq Obj] in
theorem raisedFor_failure (t : Nat) (x : Obj) (hdone : s.stage? t = some (.done (.error e))) :
    RaisedFor P s (State.failure P x (s.exception t e)) := by
  refine ⟨t, x, e, hdone, ?_⟩
  rcases s.exception_cases t e with hsame | ⟨hcancelled, hnew⟩
  · exact .inl (by rw [hsame])
  · exact .inr ⟨hcancelled, by rw [hnew]; rfl⟩

theorem firstFailure (he : s.firstFailure P = some e) : RaisedFor P s e := by
  obtain ⟨x, t, e', -, hdone, rfl⟩ := State.exists_of_firstFailure he
  exact raisedFor_failure t x hdone

/-- A task that polls is not done. -/
theorem unended_of_polls (htask : s.tasks[t]? = some task)
    (hp : State.Polls P s (.task t) args s' n) :
    s'.tasks[t]? = some task ∧ ∀ e, s'.stage? t ≠ some (.done (.error e)) := by
  obtain ⟨htask', hstage⟩ := State.task_of_polls htask hp
  refine ⟨htask', fun e heq => ?_⟩
  rw [State.stage?_of_task htask'] at heq
  rcases hstage with hstage | hstage <;> simp [hstage] at heq

theorem stepCall (h : RootsKept P s) : RootsKept P (s.stepCall P i) := by
  refine State.stepCall_rule fun s₁ hstep => ?_
  cases hstep with
  | idle _ => exact h
  | sleeps hp _ => exact (h.polls hp).setCall
  | raises hp hw =>
    exact ((h.polls hp).logRaised (firstFailure (State.waitForCache_raises hw).2)).setCall
  | returns hp _ => exact ((h.polls hp).log (by simp)).setCall

theorem advance (h : RootsKept P s) : RootsKept P (s.advance P t) := by
  refine State.advance_rule h fun task s₁ htask hadv => ?_
  have hobj := State.obj?_of_task htask
  have hrooted := h.tasks t task htask
  have ht : ∀ e, s.stage? t ≠ some (.done (.error e)) := by
    rw [State.stage?_of_task htask]
    intro e heq
    exact hadv.ne_done htask e (Option.some.inj heq)
  have hended (e : PyExc) :
      (s.setStage t (.done (.error e))).stage? t = some (.done (.error e)) := by
    rw [State.stage?_setStage, if_pos rfl, State.stage?_of_task htask, Option.map_some]
  cases hadv with
  | start _ =>
    have hs : RootsKept P { s with totalExecuted := s.totalExecuted + 1 } :=
      h.of_tasks later_totalExecuted rfl fun _ _ => id
    exact hs.setStage htask ht trivial
  | @tick st htick =>
    refine h.setStage htask ht ?_
    generalize task.stage = old at htick hrooted
    cases htick with
    | opening n => trivial
    | evaluating kw n => exact hrooted
    | closing r n =>
      exact ⟨hrooted.1, fun e he =>
        (hrooted.2 e he).imp (·.later (later_setStage ht)) (·.later (later_setStage ht))⟩
  | opened _ _ => exact h.setStage htask ht trivial
  | @openRaised e _ ho =>
    refine h.setStage htask ht fun e' he' => ?_
    obtain rfl := Except.error.inj he'
    exact ⟨t, e, e, hended e, rfl, .opening (by simpa using hobj) (hended e) ho, .hook⟩
  | found _ _ => exact h.endProcess htask ht (by simp)
  | sleeps hp _ =>
    obtain ⟨htask', ht'⟩ := unended_of_polls htask hp
    exact (h.polls hp).setStage htask' ht' trivial
  | @raises s₁ _ e hp hw =>
    obtain ⟨htask', ht'⟩ := unended_of_polls htask hp
    have hfailure := firstFailure (State.waitForCache_raises hw).2
    refine ((h.polls hp).logRaised hfailure).endProcess htask' ht' fun e' he' => ?_
    obtain rfl := Except.error.inj he'
    exact .inr (((h.polls hp).rooted_raised hfailure).later (later_handOut.trans later_log))
  | @returns s₁ _ d hp _ =>
    obtain ⟨htask', ht'⟩ := unended_of_polls htask hp
    have hlog : RootsKept P ((s₁.log (.returned (.task t) (P.readers task.obj) d)).log
        (.evaluate t task.obj (task.kwargs.merge d))) :=
      ((h.polls hp).log (by simp)).log (by simp)
    exact hlog.setStage htask' ht' (by simp [StageRooted])
  | evaluated _ _ => exact h.data.endProcess htask ht (by simp)
  | @evaluateRaised kw e hstage ho =>
    rw [hstage] at hrooted
    refine h.endProcess htask ht fun e' he' => .inl ?_
    obtain rfl := Except.error.inj he'
    refine .evaluating (by simpa using hobj) ?_ (by simp) ho
    rw [State.history_endProcess]
    exact List.mem_append_left _ hrooted
  | @closed r hstage _ =>
    rw [hstage] at hrooted
    refine h.setStage htask ht fun e he => ?_
    subst he
    rcases hrooted.2 e rfl with hraised | hrooted
    · exact ⟨t, e, e, hended e, rfl, hraised.later (later_setStage ht), .hook⟩
    · exact hrooted.later (later_setStage ht)
  | @closeRaised r e hstage ho =>
    rw [hstage] at hrooted
    refine h.setStage htask ht fun e' he' => ?_
    obtain rfl := Except.error.inj he'
    refine ⟨t, State.closeError e r, e, hended _, ?_,
      .closing (by simpa using hobj) hrooted.1 (hended _) ho, ?_⟩
    · cases r <;> rfl
    · cases r with
      | ok v => exact .hook
      | error pending => exact .during pending

theorem step (h : RootsKept P s) : RootsKept P (s.step P c) :=
  State.step_induction (fun _ => h.stepCall) (fun _ _ hs => hs.advance) h

end RootsKept

theorem rootsKept_exec [DecidableEq Obj] (P : Inputs Obj Val)
    (calls : List (List Obj × Kwargs Val)) (σ : List Caller) : RootsKept P (exec P calls σ) :=
  run_invariant (fun _ _ h => h.step)
    ⟨fun t task ht => by simp [initial] at ht, fun c r hmem => by simp [initial] at hmem⟩ σ

end NexusSdk.Cache
