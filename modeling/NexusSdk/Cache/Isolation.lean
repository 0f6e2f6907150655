import NexusSdk.Cache.Errors
import NexusSdk.Cache.Termination

/-! Which failures reach a caller of `resolve`.  A poll looks at every scheduled task, so inputs whose
own hooks raise nothing are safe only from the failures that are not there when their tasks look. -/

namespace NexusSdk.Cache

open Lib

variable {Obj Val : Type}

/-- The inputs `xs`, and all that are read for them. -/
inductive Needs (P : Inputs Obj Val) (xs : List Obj) : Obj → Prop
  | arg {x : Obj} (h : x ∈ xs) : Needs P xs x
  | reader {x y : Obj} (hx : Needs P xs x) (hy : y ∈ P.readers x) : Needs P xs y

/-- The hooks of the input raise nothing. -/
structure Succeeds (P : Inputs Obj Val) (x : Obj) : Prop where
  opens : ∀ t, (P.contextOpen t x).outcome = .ok ()
  evaluates : ∀ t kwargs, ∃ v, (P.evaluate t x kwargs).outcome = .ok v
  closes : ∀ t, (P.contextClose t x).outcome = .ok ()

/-- A task that still has to look at the scheduled tasks, before it goes on with its readers. -/
def Stage.looks (readers : Nat) : Stage Val → Bool
  | .created | .opening _ | .entered => readers != 0
  | .resolving numCached => numCached != readers
  | _ => false

def CallState.looks (args : Nat) : CallState Val → Bool
  | .idle => args != 0
  | .polling numCached => numCached != args
  | _ => false

namespace State

/-- A poll finds no failure but those of the inputs in `own`. -/
def FailuresIn (own : Obj → Prop) [DecidableEq Obj] (s : State Obj Val) : Prop :=
  ∀ x t e, s.scheduled.get? x = some t → s.stage? t = some (.done (.error e)) → own x

/-- The tasks of the inputs in `own` have raised nothing. -/
def Unfailed (own : Obj → Prop) (s : State Obj Val) : Prop :=
  ∀ (t : Nat) (task : Task Obj Val), s.tasks[t]? = some task → own task.obj →
    task.stage.ErrorIn fun _ => False

end State

theorem ticks_looks {a b : Stage Val} {n : Nat} (h : State.Ticks a b) : b.looks n = a.looks n := by
  cases h <;> rfl

theorem ticks_errorIn {a b : Stage Val} {Q : PyExc → Prop} (h : State.Ticks a b)
    (ha : a.ErrorIn Q) : b.ErrorIn Q := by
  cases h with
  | opening n => trivial
  | evaluating kw n => trivial
  | closing r n => cases r <;> exact ha

variable [DecidableEq Obj]

section Unfailed

variable {P : Inputs Obj Val} {own : Obj → Prop} {s s' : State Obj Val} {t i n : Nat} {x : Obj}
  {args : List Obj} {c : Caller} {task : Task Obj Val}

namespace State.Unfailed

omit [DecidableEq Obj] in
theorem setStage {st : Stage Val} (h : s.Unfailed own)
    (hst : ∀ x, s.obj? t = some x → own x → st.ErrorIn fun _ => False) :
    (s.setStage t st).Unfailed own := by
  intro t' task' htask' hown
  obtain ⟨task, htask, hobj, -, hstage⟩ := State.task_setStage htask'
  rw [hobj] at hown
  rw [hstage]
  split
  · next heq => exact hst task.obj (heq ▸ State.obj?_of_task htask) hown
  · exact h t' task htask hown

omit [DecidableEq Obj] in
theorem frame (h : s.Unfailed own) (htasks : s'.tasks = s.tasks) : s'.Unfailed own := by
  intro t task htask
  exact h t task (htasks ▸ htask)

theorem polls (h : s.Unfailed own) (hp : State.Polls P s c args s' n) : s'.Unfailed own := by
  cases hp with
  | again _ => exact h
  | first _ =>
    intro t task htask hown
    rcases State.task_schedule htask with htask | ⟨k, y, -, -, rfl⟩
    · exact h t task htask hown
    · trivial

theorem endProcess {r : Except PyExc (Option Val)} (h : s.Unfailed own)
    (hr : ∀ x, s.obj? t = some x → own x → ∃ v, r = .ok v) :
    (s.endProcess P t x r).Unfailed own := by
  have hframe : State.Unfailed own { s.log (.processed t x r) with
      cache := s.cache.set x r.toOption.join } := h.frame rfl
  refine hframe.setStage fun y hy hown => ?_
  obtain ⟨v, rfl⟩ := hr y hy hown
  trivial

end State.Unfailed

/-! ### Polls -/

/-- A caller that comes to the loop test with inputs missing looks at the scheduled tasks. -/
theorem looks_of_polls (htask : s.tasks[t]? = some task)
    (hp : State.Polls P s (.task t) (P.readers task.obj) s' n)
    (hn : n ≠ (P.readers task.obj).length) :
    task.stage.looks (P.readers task.obj).length = true := by
  cases hp with
  | first harr =>
    obtain ⟨x, hentered, -, -⟩ := harr
    obtain rfl := Option.some.inj (htask.symm.trans hentered)
    simpa [Stage.looks] using Ne.symm hn
  | again hsleeps =>
    obtain ⟨x, kw, hresolving, -⟩ := hsleeps
    obtain rfl := Option.some.inj (htask.symm.trans hresolving)
    simpa [Stage.looks] using hn

theorem looks_of_polls_call {call : Call Obj Val} (hcall : s.calls[i]? = some call)
    (hp : State.Polls P s (.call i) args s' n) (hn : n ≠ call.args.length) :
    call.state.looks call.args.length = true := by
  cases hp with
  | first harr =>
    obtain rfl := Option.some.inj (hcall.symm.trans harr)
    simpa [CallState.looks] using Ne.symm hn
  | again hsleeps =>
    obtain ⟨kw, hpolling⟩ := hsleeps
    obtain rfl := Option.some.inj (hcall.symm.trans hpolling)
    simpa [CallState.looks] using hn

theorem firstFailure_eq_none_of_own (hacc : Accounted P s) (h : s.Unfailed own)
    (hfailures : s.FailuresIn own) : s.firstFailure P = none := by
  refine State.firstFailure_eq_none.mpr fun x t e hget hstage => ?_
  obtain ⟨task, htask, rfl⟩ := State.exists_task_of_obj? (hacc.recorded x t hget)
  have herror := h t task htask (hfailures _ t e hget hstage)
  rw [State.stage?_of_task htask] at hstage
  rw [Option.some.inj hstage] at herror
  exact herror

theorem failuresIn_of_firstFailure (h : s.firstFailure P = none) : s.FailuresIn own := by
  intro x t e hget hstage
  exact absurd hstage (State.firstFailure_eq_none.mp h x t e hget)

/-- The recorded failures stay those of inputs in `own` while the tasks of other inputs stand. -/
theorem failuresIn_of_done (hacc : Accounted P s) (hacc' : Accounted P s') (hs : s.Grows s')
    (hrecorded : ∀ x t, s.scheduled.get? x = some t → s'.scheduled.get? x = some t)
    (hdone : ∀ t e, s'.stage? t = some (.done (.error e)) →
      s.stage? t = some (.done (.error e)) ∨ ∃ x, s.obj? t = some x ∧ own x)
    (h : s.FailuresIn own) : s'.FailuresIn own := by
  intro x t e hget hstage
  have hobj' := hacc'.recorded x t hget
  rcases hdone t e hstage with hbefore | ⟨y, hy, hown⟩
  · obtain ⟨task, htask, -⟩ := Option.map_eq_some_iff.mp hbefore
    have hobj := State.obj?_of_task htask
    obtain rfl : x = task.obj := Option.some.inj (hobj'.symm.trans (hs.objects t _ hobj))
    obtain ⟨u, hu⟩ := Dict.contains_iff.mp (hacc.owned _ t hobj)
    obtain rfl : t = u := Option.some.inj (hget.symm.trans (hrecorded _ u hu))
    exact h _ t e hu hbefore
  · obtain rfl : x = y := Option.some.inj (hobj'.symm.trans (hs.objects t y hy))
    exact hown

theorem failuresIn_polls (hacc : Accounted P s) (hp : State.Polls P s c args s' n)
    (h : s.FailuresIn own) : s'.FailuresIn own :=
  failuresIn_of_done hacc (hacc.polls hp).1 (State.grows_polls hp)
    (fun _ _ hget => recorded_polls hp hget) (fun _ _ hstage => .inl (done_of_polls hp hstage)) h

/-- No poll of a caller that looks at own failures only raises. -/
theorem not_raises_of_own {e : PyExc} (hacc : Accounted P s) (h : s.Unfailed own)
    (hfailures : s.FailuresIn own) (hp : State.Polls P s c args s' n) :
    s'.waitForCache P args n ≠ .raises e := by
  intro hw
  have hnone := firstFailure_eq_none_of_own (hacc.polls hp).1 (h.polls hp)
    (failuresIn_polls hacc hp hfailures)
  rw [(State.waitForCache_raises hw).2] at hnone
  cases hnone

/-! ### Tasks -/

/-- If the task is one of an input in `own` and still has to look, only inputs in `own` have
failed. -/
def SeesOwn (P : Inputs Obj Val) (own : Obj → Prop) (t : Nat) (s : State Obj Val) : Prop :=
  ∀ (task : Task Obj Val), s.tasks[t]? = some task → own task.obj →
    task.stage.looks (P.readers task.obj).length = true → s.FailuresIn own

theorem unfailed_advance (hown : ∀ x, own x → Succeeds P x) (hacc : Accounted P s)
    (h : s.Unfailed own) (hsees : SeesOwn P own t s) : (s.advance P t).Unfailed own := by
  refine State.advance_rule h fun task s₁ htask hadv => ?_
  have hobj {x : Obj} (hx : s.obj? t = some x) : task.obj = x := by
    simpa [State.obj?_of_task htask] using hx
  cases hadv with
  | start _ =>
    have hs : State.Unfailed own { s with totalExecuted := s.totalExecuted + 1 } := h.frame rfl
    exact hs.setStage fun _ _ _ => trivial
  | tick htick =>
    refine h.setStage fun x hx hx' => ticks_errorIn htick ?_
    exact h t task htask (hobj hx ▸ hx')
  | opened _ _ => exact h.setStage fun _ _ _ => trivial
  | openRaised _ ho =>
    refine h.setStage fun x hx hx' => ?_
    rw [hobj hx, (hown x hx').opens t] at ho
    cases ho
  | found _ _ => exact h.endProcess fun _ _ _ => ⟨_, rfl⟩
  | sleeps hp _ => exact (h.polls hp).setStage fun _ _ _ => trivial
  | @raises s' n e hp hw =>
    have hlog : (s'.log (.raised (.task t) e)).Unfailed own := (h.polls hp).frame rfl
    refine hlog.endProcess fun x hx hx' => ?_
    obtain rfl : task.obj = x := by
      simpa [State.obj?_of_task (State.task_of_polls htask hp).1] using hx
    have hlooks := looks_of_polls htask hp (State.waitForCache_raises hw).1
    exact absurd hw (not_raises_of_own hacc h (hsees task htask hx' hlooks) hp)
  | @returns s' n d hp hw =>
    have hlog : ((s'.log (.returned (.task t) (P.readers task.obj) d)).log
        (.evaluate t task.obj (task.kwargs.merge d))).Unfailed own := (h.polls hp).frame rfl
    exact hlog.setStage fun _ _ _ => trivial
  | @evaluated kw v _ _ =>
    have hs : State.Unfailed own { s with data := Function.update s.data task.obj v } := h.frame rfl
    exact hs.endProcess fun _ _ _ => ⟨_, rfl⟩
  | @evaluateRaised kw e _ ho =>
    refine h.endProcess fun x hx hx' => ?_
    obtain ⟨v, hv⟩ := (hown x hx').evaluates t kw
    rw [hobj hx, hv] at ho
    cases ho
  | @closed r hc _ =>
    refine h.setStage fun x hx hx' => ?_
    have herror := h t task htask (hobj hx ▸ hx')
    rw [hc] at herror
    cases r <;> exact herror
  | closeRaised _ ho =>
    refine h.setStage fun x hx hx' => ?_
    rw [hobj hx, (hown x hx').closes t] at ho
    cases ho

/-- A task that still has to look after it went on had to before. -/
theorem looks_advance {st : Stage Val} (htask : s.tasks[t]? = some task)
    (hst : (s.advance P t).stage? t = some st)
    (hlooks : st.looks (P.readers task.obj).length = true) :
    task.stage.looks (P.readers task.obj).length = true := by
  rcases State.advance_cases (P := P) htask with hadv | ⟨-, heq⟩
  swap
  · rw [heq, State.stage?_of_task htask] at hst
    rwa [Option.some.inj hst]
  generalize s.advance P t = s₁ at hadv hst
  have hset {s : State Obj Val} {st' : Stage Val} (hst : (s.setStage t st').stage? t = some st) :
      st = st' := by
    rw [State.stage?_setStage, if_pos rfl] at hst
    obtain ⟨_, -, heq⟩ := Option.map_eq_some_iff.mp hst
    exact heq.symm
  cases hadv with
  | start hc =>
    rw [hset hst] at hlooks
    rw [hc]
    exact hlooks
  | tick htick =>
    rw [hset hst, ticks_looks htick] at hlooks
    exact hlooks
  | opened hc _ =>
    rw [hset hst] at hlooks
    rw [hc]
    exact hlooks
  | sleeps hp hw => exact looks_of_polls htask hp (State.waitForCache_sleeps hw).1
  | raises hp hw => exact looks_of_polls htask hp (State.waitForCache_raises hw).1
  | _ =>
    rw [hset hst] at hlooks
    cases hlooks

theorem seesOwn_advance (hacc : Accounted P s) (hsees : SeesOwn P own t s) :
    SeesOwn P own t (s.advance P t) := by
  intro task' htask' hown hlooks
  cases htask : s.tasks[t]? with
  | none =>
    have heq : s.advance P t = s := by simp only [State.advance, htask]
    rw [heq] at htask'
    cases htask.symm.trans htask'
  | some task =>
    have hgrows : s.Grows (s.advance P t) := State.grows_advance
    have hobj : task.obj = task'.obj := by
      have hobj' := hgrows.objects t _ (State.obj?_of_task htask)
      rw [State.obj?_of_task htask'] at hobj'
      exact (Option.some.inj hobj').symm
    rw [← hobj] at hown hlooks
    have hbefore := looks_advance htask (State.stage?_of_task htask') hlooks
    refine failuresIn_of_done hacc hacc.advance hgrows (fun _ _ hget => recorded_advance hget) ?_
      (hsees task htask hown hbefore)
    intro u e hstage
    by_cases hu : u = t
    · exact .inr ⟨task.obj, hu ▸ State.obj?_of_task htask, hown⟩
    · exact .inl (done_of_advance hu hstage)

/-! ### Steps -/

/-- The condition on a step: if it is that of a task for an input in `own`, the task sees failures
of such inputs only. -/
def Undisturbed (P : Inputs Obj Val) (own : Obj → Prop) (s : State Obj Val) : Caller → Prop
  | .task t => SeesOwn P own t s
  | .call _ => True

theorem unfailed_step (hown : ∀ x, own x → Succeeds P x) (hacc : Accounted P s)
    (h : s.Unfailed own) (hc : Undisturbed P own s c) : (s.step P c).Unfailed own := by
  cases c with
  | call i =>
    refine State.stepCall_rule (Q := State.Unfailed own) fun s₁ hstep => ?_
    cases hstep with
    | idle _ => exact h
    | sleeps hp _ => exact (h.polls hp).frame rfl
    | raises hp _ => exact (h.polls hp).frame rfl
    | returns hp _ => exact (h.polls hp).frame rfl
  | task t =>
    have hstep (s : State Obj Val)
        (hs : Accounted P s ∧ s.Unfailed own ∧ SeesOwn P own t s) :
        Accounted P (s.advance P t) ∧ (s.advance P t).Unfailed own ∧
          SeesOwn P own t (s.advance P t) :=
      ⟨hs.1.advance, unfailed_advance hown hs.1 hs.2.1 hs.2.2, seesOwn_advance hs.1 hs.2.2⟩
    exact (State.settle_induction (fun s hs _ => hstep s hs) 4 (hstep s ⟨hacc, h, hc⟩)).2.1

/-- A call that sees failures of inputs in `own` only, and ends, returns. -/
theorem answer_stepCall (hacc : Accounted P s) (h : s.Unfailed own) {call : Call Obj Val}
    (hcall : s.calls[i]? = some call) (hopen : call.state.ended = false)
    (hsees : call.state.looks call.args.length = true → s.FailuresIn own) :
    ∃ st, (s.stepCall P i).calls[i]? = some { call with state := st } ∧
      (st.ended = true → (∀ x ∈ call.args, s.cache.contains x = true) ∧
        st = .returned (s.collect P call.args)) := by
  have hstep : State.CallSteps P s i (s.stepCall P i) := State.stepCall_cases
  generalize s.stepCall P i = s₁ at hstep ⊢
  cases hstep with
  | idle hended =>
    rw [hended call hcall] at hopen
    cases hopen
  | @sleeps s' args n m hp _ =>
    exact ⟨.polling m, by simp [State.calls_polls hp, hcall], fun hended => by cases hended⟩
  | @raises s' args n e hp hw =>
    obtain ⟨rfl, -⟩ := State.call_of_polls hcall hp
    have hlooks := looks_of_polls_call hcall hp (State.waitForCache_raises hw).1
    exact absurd hw (not_raises_of_own hacc h (hsees hlooks) hp)
  | @returns s' args n d hp hw =>
    obtain ⟨rfl, -⟩ := State.call_of_polls hcall hp
    obtain ⟨hn, rfl⟩ := State.waitForCache_returns hw
    refine ⟨.returned (s'.collect P call.args), by simp [State.calls_polls hp, hcall], fun _ => ?_⟩
    have hall := (hacc.polls hp).2 hn
    rw [State.cache_polls hp] at hall
    refine ⟨hall, ?_⟩
    cases hp with
    | again _ => rfl
    | first _ => simp only [State.collect, State.cache_schedule, State.data_schedule]

end Unfailed

end NexusSdk.Cache
