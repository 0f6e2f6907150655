import NexusSdk.Cache.Steps

/-! What holds of the exceptions of a run.  Every exception that a task ends with was raised by a
hook, or by a nested `resolve` from such an exception; what holds of the hooks' exceptions and is
kept by the cache's mapping holds of all of them. -/

namespace NexusSdk.Cache

open Lib

variable {Obj Val : Type}

/-- The exceptions that the user hooks raise. -/
def hookExceptions (P : Inputs Obj Val) : Set PyExc :=
  { e | ∃ t x, (P.contextOpen t x).outcome = .error e ∨
    (∃ kwargs, (P.evaluate t x kwargs).outcome = .error e) ∨
    (P.contextClose t x).outcome = .error e }

def Stage.ErrorIn (Q : PyExc → Prop) : Stage Val → Prop
  | .closing (.error e) _ | .done (.error e) => Q e
  | _ => True

/-- The exceptions of the tasks that are done satisfy `R`. -/
def EndedIn (R : PyExc → Prop) (s : State Obj Val) : Prop :=
  ∀ t e, s.stage? t = some (.done (.error e)) → R e

/-- `Q` holds of the exceptions of the hooks, and the cache, which finds those with `R` in tasks,
and `__aexit__` keep it. -/
structure InheritedWhile (P : Inputs Obj Val) (R Q : PyExc → Prop) : Prop where
  hooks : ∀ e ∈ hookExceptions P, Q e
  failure : ∀ x e, Q e → R e → Q (State.failure P x e)
  renewed : ∀ e, Q e → R e → e.isCancelled = true → Q .newCancelled ∧ R .newCancelled
  during : ∀ e pending, Q e → Q (e.during pending)

structure ErrorsWhile (P : Inputs Obj Val) (R Q : PyExc → Prop) (s : State Obj Val) : Prop where
  stages : ∀ t st, s.stage? t = some st → st.ErrorIn Q
  raised : ∀ c r, .raised c r ∈ s.history → ∃ x e, Q e ∧ R e ∧ r = State.failure P x e

variable [DecidableEq Obj]

section Ended

variable {P : Inputs Obj Val} {s s' : State Obj Val} {t t' n : Nat} {args : List Obj} {c : Caller}
  {r : Except PyExc (Option Val)}

theorem done_of_polls (hp : State.Polls P s c args s' n) (h : s'.stage? t = some (.done r)) :
    s.stage? t = some (.done r) := by
  cases hp with
  | again _ => exact h
  | first _ =>
    obtain ⟨task, htask, hstage⟩ := Option.map_eq_some_iff.mp h
    rcases State.task_schedule htask with htask | ⟨k, y, -, -, rfl⟩
    · rw [State.stage?_of_task htask, hstage]
    · cases hstage

omit [DecidableEq Obj] in
theorem done_of_setStage {st : Stage Val} (hne : t' ≠ t)
    (h : (s.setStage t st).stage? t' = some (.done r)) : s.stage? t' = some (.done r) := by
  rwa [State.stage?_setStage, if_neg hne] at h

/-- A task that is done after the step of another one was done before. -/
theorem done_of_advance (hne : t' ≠ t) (h : (s.advance P t).stage? t' = some (.done r)) :
    s.stage? t' = some (.done r) := by
  revert h
  refine State.advance_rule (Q := fun s₁ => s₁.stage? t' = some (.done r) →
    s.stage? t' = some (.done r)) id fun task s₁ _ hadv h => ?_
  cases hadv with
  | sleeps hp _ => exact done_of_polls hp (done_of_setStage hne h)
  | raises hp _ => exact done_of_polls hp (done_of_setStage hne h)
  | returns hp _ => exact done_of_polls hp (done_of_setStage hne h)
  | _ => exact done_of_setStage hne h

/-- A call ends no task. -/
theorem endedIn_stepCall {R : PyExc → Prop} (h : EndedIn R s) : EndedIn R (s.stepCall P t) := by
  refine State.stepCall_rule fun s₁ hstep t' e he => ?_
  cases hstep with
  | idle _ => exact h t' e he
  | sleeps hp _ => exact h t' e (done_of_polls hp he)
  | raises hp _ => exact h t' e (done_of_polls hp he)
  | returns hp _ => exact h t' e (done_of_polls hp he)

end Ended

namespace ErrorsWhile

variable {P : Inputs Obj Val} {R Q : PyExc → Prop} {s s' : State Obj Val} {t i n : Nat} {x : Obj}
  {args : List Obj} {c : Caller} {task : Task Obj Val}

omit [DecidableEq Obj] in
theorem setStage {st : Stage Val} (h : ErrorsWhile P R Q s) (hst : st.ErrorIn Q) :
    ErrorsWhile P R Q (s.setStage t st) where
  stages t' st' ht' := by
    rw [State.stage?_setStage] at ht'
    split at ht'
    · obtain ⟨_, -, rfl⟩ := Option.map_eq_some_iff.mp ht'
      exact hst
    · exact h.stages t' st' ht'
  raised := h.raised

omit [DecidableEq Obj] in
theorem setCall {st : CallState Val} (h : ErrorsWhile P R Q s) :
    ErrorsWhile P R Q (s.setCall i st) :=
  ⟨h.1, h.2⟩

omit [DecidableEq Obj] in
theorem data {d : Obj → Option Val} (h : ErrorsWhile P R Q s) :
    ErrorsWhile P R Q { s with data := d } :=
  ⟨h.1, h.2⟩

omit [DecidableEq Obj] in
theorem handOut (h : ErrorsWhile P R Q s) : ErrorsWhile P R Q s.handOut := ⟨h.1, h.2⟩

omit [DecidableEq Obj] in
theorem log {e : Event Obj Val} (h : ErrorsWhile P R Q s)
    (he : ∀ c r, e = .raised c r → ∃ x e, Q e ∧ R e ∧ r = State.failure P x e) :
    ErrorsWhile P R Q (s.log e) where
  stages := h.stages
  raised c r hmem := by
    rcases List.mem_append.mp hmem with hmem | hmem
    · exact h.raised c r hmem
    · exact he c r (List.mem_singleton.mp hmem).symm

theorem endProcess {r : Except PyExc (Option Val)} (h : ErrorsWhile P R Q s)
    (hr : (Stage.closing r 0).ErrorIn Q) : ErrorsWhile P R Q (s.endProcess P t x r) := by
  have hlog : ErrorsWhile P R Q (s.log (.processed t x r)) := h.log (by simp)
  have hset : ErrorsWhile P R Q ((s.log (.processed t x r)).setStage t
      (.closing r (P.contextClose t x).suspensions)) := hlog.setStage (by cases r <;> exact hr)
  exact ⟨hset.stages, hset.raised⟩

theorem polls (h : ErrorsWhile P R Q s) (hp : State.Polls P s c args s' n) :
    ErrorsWhile P R Q s' := by
  cases hp with
  | again _ => exact h
  | first _ =>
    refine ⟨fun t st ht => ?_, fun c r hmem => h.raised c r (by simpa using hmem)⟩
    obtain ⟨task, htask, rfl⟩ := Option.map_eq_some_iff.mp ht
    rcases State.task_schedule htask with htask | ⟨k, y, -, -, rfl⟩
    · exact h.stages t _ (State.stage?_of_task htask)
    · trivial

theorem firstFailure {e : PyExc} (hQ : InheritedWhile P R Q) (h : ErrorsWhile P R Q s)
    (hR : EndedIn R s) (he : s.firstFailure P = some e) :
    ∃ x e', Q e' ∧ R e' ∧ e = State.failure P x e' := by
  obtain ⟨x, t, e', -, hstage, rfl⟩ := State.exists_of_firstFailure he
  have hq : Q e' := h.stages t _ hstage
  have hr : R e' := hR t e' hstage
  rcases State.exception_cases s t e' with hsame | ⟨hcancelled, hnew⟩
  · exact ⟨x, e', hq, hr, by rw [hsame]⟩
  · obtain ⟨hq', hr'⟩ := hQ.renewed e' hq hr hcancelled
    exact ⟨x, .newCancelled, hq', hr', by rw [hnew]⟩

theorem stepCall (hQ : InheritedWhile P R Q) (h : ErrorsWhile P R Q s) (hR : EndedIn R s) :
    ErrorsWhile P R Q (s.stepCall P i) := by
  refine State.stepCall_rule fun s₁ hstep => ?_
  cases hstep with
  | idle _ => exact h
  | sleeps hp _ => exact (h.polls hp).setCall
  | raises hp hw =>
    have hfail := (h.polls hp).firstFailure hQ (fun t e he => hR t e (done_of_polls hp he))
      (State.waitForCache_raises hw).2
    exact ((h.polls hp).handOut.log fun c r heq => (Event.raised.inj heq).2 ▸ hfail).setCall
  | returns hp _ => exact ((h.polls hp).log (by simp)).setCall

/-- The task itself is not done when it polls, so `R` is needed of the others only. -/
theorem advance (hQ : InheritedWhile P R Q) (h : ErrorsWhile P R Q s)
    (hR : ∀ t' ≠ t, ∀ e, s.stage? t' = some (.done (.error e)) → R e) :
    ErrorsWhile P R Q (s.advance P t) := by
  refine State.advance_rule h fun task s₁ htask hadv => ?_
  have hstage := h.stages t _ (State.stage?_of_task htask)
  cases hadv with
  | start _ =>
    have hs : ErrorsWhile P R Q { s with totalExecuted := s.totalExecuted + 1 } := ⟨h.1, h.2⟩
    exact hs.setStage trivial
  | tick htick =>
    refine h.setStage ?_
    generalize task.stage = old at htick hstage
    cases htick with
    | opening n => trivial
    | evaluating kw n => trivial
    | closing r n => cases r <;> exact hstage
  | opened _ _ => exact h.setStage trivial
  | openRaised _ ho => exact h.setStage (hQ.hooks _ ⟨t, task.obj, .inl ho⟩)
  | found _ _ => exact h.endProcess trivial
  | sleeps hp _ => exact (h.polls hp).setStage trivial
  | @raises s₁ _ _ hp hw =>
    have hended : EndedIn R s₁ := by
      intro t' e he
      by_cases hne : t' = t
      · subst hne
        obtain ⟨htask', hpolls⟩ := State.task_of_polls htask hp
        rw [State.stage?_of_task htask'] at he
        rcases hpolls with hpolls | hpolls <;> simp [hpolls] at he
      · exact hR t' hne e (done_of_polls hp he)
    have hfail := (h.polls hp).firstFailure hQ hended (State.waitForCache_raises hw).2
    refine endProcess ((h.polls hp).handOut.log fun c r heq => (Event.raised.inj heq).2 ▸ hfail) ?_
    obtain ⟨x, e, he, hr, rfl⟩ := hfail
    exact hQ.failure x e he hr
  | returns hp _ => exact (((h.polls hp).log (by simp)).log (by simp)).setStage trivial
  | evaluated _ _ => exact h.data.endProcess trivial
  | evaluateRaised _ ho => exact h.endProcess (hQ.hooks _ ⟨t, task.obj, .inr (.inl ⟨_, ho⟩)⟩)
  | @closed r hc _ =>
    rw [hc] at hstage
    exact h.setStage (by cases r <;> exact hstage)
  | @closeRaised r e hc ho =>
    have he := hQ.hooks e ⟨t, task.obj, .inr (.inr ho)⟩
    cases r with
    | ok v => exact h.setStage he
    | error pending => exact h.setStage (hQ.during e pending he)

theorem step (hQ : InheritedWhile P R Q) (h : ErrorsWhile P R Q s) (hR : EndedIn R s) :
    ErrorsWhile P R Q (s.step P c) := by
  cases c with
  | call i => exact h.stepCall hQ hR
  | task t =>
    have hothers : ∀ t' ≠ t, ∀ e, s.stage? t' = some (.done (.error e)) → R e :=
      fun t' _ e he => hR t' e he
    exact (State.settle_induction (I := fun s => ErrorsWhile P R Q s ∧
        ∀ t' ≠ t, ∀ e, s.stage? t' = some (.done (.error e)) → R e)
      (fun s hs _ => ⟨hs.1.advance hQ hs.2,
        fun t' hne e he => hs.2 t' hne e (done_of_advance hne he)⟩) 4
      ⟨h.advance hQ hothers, fun t' hne e he => hothers t' hne e (done_of_advance hne he)⟩).1

end ErrorsWhile

omit [DecidableEq Obj] in
theorem errorsWhile_initial (P : Inputs Obj Val) (R Q : PyExc → Prop)
    (calls : List (List Obj × Kwargs Val)) : ErrorsWhile P R Q (initial calls) where
  stages t st ht := by simp [initial, State.stage?] at ht
  raised c r hmem := by simp [initial] at hmem

/-- While only exceptions with `R` end tasks, `resolve` calls raise what such exceptions with `Q`
are made into. -/
theorem errorsWhile_exec {P : Inputs Obj Val} {R Q : PyExc → Prop} (hQ : InheritedWhile P R Q)
    (calls : List (List Obj × Kwargs Val)) {σ : List Caller}
    (hσ : Along (State.step P) (fun s _ => EndedIn R s) (initial calls) σ) :
    ErrorsWhile P R Q (exec P calls σ) :=
  run_induction (fun _ _ h hR => h.step hQ hR) (errorsWhile_initial P R Q calls) hσ

end NexusSdk.Cache
