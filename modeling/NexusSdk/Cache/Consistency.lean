import NexusSdk.Cache.Evaluation
import NexusSdk.Cache.Quiescence

/-! What the callers of one cache see of each other's inputs.  The hooks may fail, suspend, and
behave differently in every run.  If each object has one task, its data is written once, before the cache
shows it, so all calls of `resolve` return the values of one snapshot. -/

namespace NexusSdk.Cache

open Lib

variable {Obj Val : Type}

theorem named_congr {P : Inputs Obj Val} {value value' : Obj → Option Val} {xs : List Obj}
    (h : ∀ x ∈ xs, value x = value' x) : named P value xs = named P value' xs :=
  congrArg Dict.ofList (List.map_congr_left fun x hx => congrArg _ (h x hx))

/-- No task of `x` is past its `process`. -/
def State.Unsettled (s : State Obj Val) (x : Obj) : Prop :=
  ∀ t st, s.obj? t = some x → s.stage? t = some st → st.processed = false

/-- The keyword arguments of a top-level call. -/
def State.Passed (s : State Obj Val) (kwargs : Kwargs Val) : Prop :=
  ∃ (i : Nat) (call : Call Obj Val), s.calls[i]? = some call ∧ call.kwargs = kwargs

theorem State.passed_setCall {s : State Obj Val} {i : Nat} {st : CallState Val}
    {kwargs : Kwargs Val} (h : s.Passed kwargs) : (s.setCall i st).Passed kwargs := by
  obtain ⟨j, call, hcall, rfl⟩ := h
  refine ⟨j, if i = j then { call with state := st } else call, ?_, ?_⟩
  · rw [State.calls_setCall, List.getElem?_modify, hcall]
    rfl
  · split <;> rfl

/-- How `process` of `x` comes to its outcome in task `t`: as that of the hook, or of the `resolve`
of its readers. -/
def Explained (P : Inputs Obj Val) (history : List (Event Obj Val)) (t : Nat) (x : Obj)
    (r : Except PyExc (Option Val)) : Prop :=
  (∃ kw, .evaluate t x kw ∈ history ∧ r = (P.evaluate t x kw).outcome) ∨
    ∃ e, r = .error e ∧ .raised (.task t) e ∈ history

theorem Explained.append {P : Inputs Obj Val} {h : List (Event Obj Val)} {t : Nat} {x : Obj}
    {r : Except PyExc (Option Val)} (hr : Explained P h t x r) (h' : List (Event Obj Val)) :
    Explained P (h ++ h') t x r :=
  hr.imp (fun ⟨kw, hkw, heq⟩ => ⟨kw, List.mem_append_left _ hkw, heq⟩)
    fun ⟨e, heq, he⟩ => ⟨e, heq, List.mem_append_left _ he⟩

variable [DecidableEq Obj]

/-- The data of the inputs is a snapshot: what is not past its `process` has none, and what was
returned, passed to a hook or processed so far agrees with it. -/
structure Consistent (P : Inputs Obj Val) (s : State Obj Val) : Prop where
  fresh : ∀ x, s.Unsettled x → s.data x = none
  kwargs : ∀ (t : Nat) (task : Task Obj Val), s.tasks[t]? = some task → s.Passed task.kwargs
  calls : ∀ (i : Nat) (call : Call Obj Val) (d : Kwargs Val), s.calls[i]? = some call →
    call.state = .returned d → .returned (.call i) call.args d ∈ s.history
  returned : ∀ c args d, .returned c args d ∈ s.history → d = named P s.data args
  evaluating : ∀ (t : Nat) (task : Task Obj Val) kw n, s.tasks[t]? = some task →
    task.stage = .evaluating kw n → .evaluate t task.obj kw ∈ s.history
  evaluate : ∀ t x kw, .evaluate t x kw ∈ s.history →
    (∀ y ∈ P.readers x, s.cache.contains y = true) ∧
      ∃ kwargs, s.Passed kwargs ∧ kw = kwargs.merge (named P s.data (P.readers x))
  processed : ∀ t x r, .processed t x r ∈ s.history →
    (∃ st, s.obj? t = some x ∧ s.stage? t = some st ∧ st.processed = true) ∧
      s.data x = r.toOption.join ∧ Explained P s.history t x r

namespace Consistent

variable {P : Inputs Obj Val} {s s' : State Obj Val} {t i n : Nat} {x : Obj} {args : List Obj}
  {c : Caller} {task : Task Obj Val}

theorem totalExecuted {k : Nat} (h : Consistent P s) :
    Consistent P { s with totalExecuted := k } :=
  ⟨h.1, h.2, h.3, h.4, h.5, h.6, h.7⟩

theorem handOut (h : Consistent P s) : Consistent P s.handOut :=
  ⟨h.1, h.2, h.3, h.4, h.5, h.6, h.7⟩

/-- An event that says nothing about data, or agrees with it. -/
theorem log {e : Event Obj Val} (h : Consistent P s)
    (hreturned : ∀ c args d, e = .returned c args d → d = named P s.data args)
    (hevaluate : ∀ t x kw, e = .evaluate t x kw →
      (∀ y ∈ P.readers x, s.cache.contains y = true) ∧
        ∃ kwargs, s.Passed kwargs ∧ kw = kwargs.merge (named P s.data (P.readers x)))
    (hprocessed : ∀ t x r, e ≠ .processed t x r) : Consistent P (s.log e) where
  fresh := h.fresh
  kwargs := h.kwargs
  calls i call d hcall hd := List.mem_append_left _ (h.calls i call d hcall hd)
  returned c args d hmem := by
    rcases List.mem_append.mp hmem with hmem | hmem
    · exact h.returned c args d hmem
    · exact hreturned c args d (List.mem_singleton.mp hmem).symm
  evaluating t task kw n htask hst := List.mem_append_left _ (h.evaluating t task kw n htask hst)
  evaluate t x kw hmem := by
    rcases List.mem_append.mp hmem with hmem | hmem
    · exact h.evaluate t x kw hmem
    · exact hevaluate t x kw (List.mem_singleton.mp hmem).symm
  processed t x r hmem := by
    rcases List.mem_append.mp hmem with hmem | hmem
    · obtain ⟨hpast, hdata, hr⟩ := h.processed t x r hmem
      exact ⟨hpast, hdata, hr.append _⟩
    · exact absurd (List.mem_singleton.mp hmem).symm (hprocessed t x r)

/-- A task does not go back behind its `process`. -/
theorem setStage {st : Stage Val} (h : Consistent P s) (htask : s.tasks[t]? = some task)
    (hpast : task.stage.processed = true → st.processed = true)
    (hst : ∀ kw n, st = .evaluating kw n → .evaluate t task.obj kw ∈ s.history) :
    Consistent P (s.setStage t st) := by
  have hkeep {t' : Nat} {old : Stage Val} (hold : s.stage? t' = some old)
      (hprocessed : old.processed = true) :
      ∃ st', (s.setStage t st).stage? t' = some st' ∧ st'.processed = true := by
    by_cases heq : t' = t
    · subst heq
      refine ⟨st, by simp [hold], hpast ?_⟩
      rw [State.stage?_of_task htask] at hold
      rwa [Option.some.inj hold]
    · exact ⟨old, by simpa [heq] using hold, hprocessed⟩
  refine ⟨fun x hx => h.fresh x fun t' old hobj hold => ?_, fun t' task' htask' => ?_, h.calls,
    h.returned, fun t' task' kw n htask' heq => ?_, h.evaluate, fun t' x r hmem => ?_⟩
  · by_contra hprocessed
    obtain ⟨st', hst', hpast'⟩ := hkeep hold (Bool.eq_true_of_not_eq_false hprocessed)
    rw [hx t' st' (by simpa using hobj) hst'] at hpast'
    cases hpast'
  · obtain ⟨old, hold, -, hkw, -⟩ := State.task_setStage htask'
    rw [hkw]
    exact h.kwargs t' old hold
  · obtain ⟨old, hold, hobj, -, hstage⟩ := State.task_setStage htask'
    rw [hobj]
    rw [hstage] at heq
    split at heq
    · next hsame =>
      subst hsame
      obtain rfl := Option.some.inj (htask.symm.trans hold)
      exact hst kw n heq
    · exact h.evaluating t' old kw n hold heq
  · obtain ⟨⟨old, hobj, hold, hprocessed⟩, hdata, hr⟩ := h.processed t' x r hmem
    obtain ⟨st', hst', hpast'⟩ := hkeep hold hprocessed
    exact ⟨⟨st', by simpa using hobj, hst', hpast'⟩, hdata, hr⟩

theorem setCall {st : CallState Val} (h : Consistent P s)
    (hst : ∀ call d, s.calls[i]? = some call → st = .returned d →
      .returned (.call i) call.args d ∈ s.history) : Consistent P (s.setCall i st) := by
  refine ⟨h.fresh, fun t task htask => State.passed_setCall (h.kwargs t task htask),
    fun j call d hcall hd => ?_, h.returned, h.evaluating, fun t x kw hmem => ?_, h.processed⟩
  · rw [State.calls_setCall, List.getElem?_modify] at hcall
    obtain ⟨old, hold, rfl⟩ := Option.map_eq_some_iff.mp hcall
    by_cases hj : i = j
    · subst hj
      rw [if_pos rfl] at hd ⊢
      exact hst old d hold hd
    · rw [if_neg hj] at hd ⊢
      exact h.calls j old d hold hd
  · obtain ⟨hreaders, kwargs, hpassed, hkw⟩ := h.evaluate t x kw hmem
    exact ⟨hreaders, kwargs, State.passed_setCall hpassed, hkw⟩

theorem schedule {kw : Kwargs Val} (h : Consistent P s) (hkw : s.Passed kw) :
    Consistent P (s.schedule c args kw) where
  fresh x hx := by
    rw [State.data_schedule]
    exact h.fresh x fun t st hobj hst =>
      hx t st (State.obj?_schedule_of_some hobj) (State.stage?_schedule_of_some hst)
  kwargs t task htask := by
    rw [State.Passed, State.calls_schedule]
    rcases State.task_schedule htask with htask | ⟨k, y, -, -, rfl⟩
    · exact h.kwargs t task htask
    · exact hkw
  calls i call d hcall hd := by
    rw [State.calls_schedule] at hcall
    rw [State.history_schedule]
    exact List.mem_append_left _ (h.calls i call d hcall hd)
  returned c' args' d hmem := by
    rw [State.history_schedule] at hmem
    rw [State.data_schedule]
    exact h.returned c' args' d (by simpa using hmem)
  evaluating t task kw' n htask hst := by
    rw [State.history_schedule]
    rcases State.task_schedule htask with htask | ⟨k, y, -, -, rfl⟩
    · exact List.mem_append_left _ (h.evaluating t task kw' n htask hst)
    · cases hst
  evaluate t x kw' hmem := by
    rw [State.history_schedule] at hmem
    simp only [State.Passed, State.cache_schedule, State.data_schedule, State.calls_schedule]
    exact h.evaluate t x kw' (by simpa using hmem)
  processed t x r hmem := by
    rw [State.history_schedule] at hmem ⊢
    obtain ⟨⟨st, hobj, hst, hpast⟩, hdata, hr⟩ := h.processed t x r (by simpa using hmem)
    refine ⟨⟨st, State.obj?_schedule_of_some hobj, State.stage?_schedule_of_some hst, hpast⟩, ?_,
      hr.append _⟩
    rw [State.data_schedule]
    exact hdata

theorem polls (h : Consistent P s) (hp : State.Polls P s c args s' n) : Consistent P s' := by
  cases hp with
  | again _ => exact h
  | first harr =>
    refine h.schedule ?_
    cases c with
    | call i => exact ⟨i, _, harr, rfl⟩
    | task t =>
      obtain ⟨x, htask, -, -⟩ := harr
      exact h.kwargs t _ htask

theorem collect_eq (hall : ∀ x ∈ args, s.cache.contains x = true) :
    s.collect P args = named P s.data args := by
  rw [State.collect, List.filter_eq_self.mpr hall]
  rfl

end Consistent

/-! ### The end of `process` -/

section Settling

variable {P : Inputs Obj Val} {s : State Obj Val} {t : Nat} {x : Obj} {task : Task Obj Val}

/-- The only task of an object stands before the end of `process`. -/
theorem OneTask.unsettled (h : OneTask s) (htask : s.tasks[t]? = some task)
    (hstage : task.stage.processed = false) : s.Unsettled task.obj := by
  intro t' st hobj hst
  have hsame := (h.unique _ t' hobj).symm.trans (h.unique _ t (State.obj?_of_task htask))
  obtain rfl := Option.some.inj hsame
  rw [State.stage?_of_task htask] at hst
  rwa [← Option.some.inj hst]

/-- What `process` ends with becomes the data of its object; nobody has seen the object before. -/
theorem Consistent.endProcess {r : Except PyExc (Option Val)} {d : Obj → Option Val}
    (h : Consistent P s) (hacc : Accounted P s)
    (hsettled : ∀ y, s.cache.contains y = true →
      ∃ t st, s.obj? t = some y ∧ s.stage? t = some st ∧ st.processed = true)
    (htask : s.tasks[t]? = some task) (hx : s.Unsettled task.obj)
    (hother : ∀ y, y ≠ task.obj → d y = s.data y) (hown : d task.obj = r.toOption.join)
    (hr : Explained P s.history t task.obj r) :
    Consistent P ({ s with data := d }.endProcess P t task.obj r) := by
  have hcached {y : Obj} (hy : s.cache.contains y = true) : d y = s.data y := by
    refine hother y ?_
    rintro rfl
    obtain ⟨t', st, hobj, hst, hpast⟩ := hsettled _ hy
    rw [hx t' st hobj hst] at hpast
    cases hpast
  have hobj := State.obj?_of_task htask
  have hobjs (t' : Nat) :
      ({ s with data := d }.endProcess P t task.obj r).obj? t' = s.obj? t' :=
    State.obj?_endProcess ..
  refine ⟨fun y hy => ?_, fun t' task' htask' => ?_, fun i call d' hcall hd' => ?_,
    fun c args d' hmem => ?_, fun t' task' kw n htask' heq => ?_, fun t' y kw hmem => ?_,
    fun t' y r' hmem => ?_⟩
  · show d y = none
    by_cases heq : y = task.obj
    · subst heq
      cases hy t (.closing r (P.contextClose t task.obj).suspensions) ((hobjs t).trans hobj)
        (by simp [State.stage?_of_task htask])
    · rw [hother y heq]
      refine h.fresh y fun t' st hobj' hst => hy t' st ((hobjs t').trans hobj') ?_
      have hne : t' ≠ t := by
        rintro rfl
        exact heq (Option.some.inj (hobj'.symm.trans hobj))
      simpa [hne] using hst
  · obtain ⟨old, hold, -, hkw, -⟩ := State.task_setStage htask'
    rw [hkw]
    exact h.kwargs t' old hold
  · exact List.mem_append_left _ (h.calls i call d' hcall hd')
  · rw [State.history_endProcess] at hmem
    have hmem : .returned c args d' ∈ s.history := by simpa using hmem
    refine (h.returned c args d' hmem).trans (named_congr fun y hy => ?_)
    exact (hcached (hacc.returned c args d' hmem y hy)).symm
  · obtain ⟨old, hold, hobj', -, hstage⟩ := State.task_setStage htask'
    rw [hobj']
    rw [hstage] at heq
    split at heq
    · cases heq
    · exact List.mem_append_left _ (h.evaluating t' old kw n hold heq)
  · rw [State.history_endProcess] at hmem
    have hmem : .evaluate t' y kw ∈ s.history := by simpa using hmem
    obtain ⟨hreaders, kwargs, hpassed, hkw⟩ := h.evaluate t' y kw hmem
    refine ⟨fun z hz => ?_, kwargs, hpassed, ?_⟩
    · simp [hreaders z hz]
    · rw [hkw]
      exact congrArg _ (named_congr fun z hz => (hcached (hreaders z hz)).symm)
  · rw [State.history_endProcess] at hmem ⊢
    rcases List.mem_append.mp hmem with hmem | hmem
    · obtain ⟨⟨st, hobj', hst, hpast⟩, hdata, hr'⟩ := h.processed t' y r' hmem
      have hne : y ≠ task.obj := by
        rintro rfl
        rw [hx t' st hobj' hst] at hpast
        cases hpast
      have hne' : t' ≠ t := by
        rintro rfl
        exact hne (Option.some.inj (hobj'.symm.trans hobj))
      refine ⟨⟨st, (hobjs t').trans hobj', by simpa [hne'] using hst, hpast⟩, ?_, hr'.append _⟩
      exact (hother y hne).trans hdata
    · obtain ⟨rfl, rfl, rfl⟩ := Event.processed.inj (List.mem_singleton.mp hmem)
      refine ⟨⟨.closing r' (P.contextClose t' task.obj).suspensions, (hobjs t').trans hobj, ?_,
        rfl⟩, hown, hr.append _⟩
      simp [State.stage?_of_task htask]

end Settling

/-! ### Every run -/

namespace Consistent

variable {P : Inputs Obj Val} {s : State Obj Val} {t i : Nat} {c : Caller}

theorem stepCall (h : Consistent P s) (hacc : Accounted P s) : Consistent P (s.stepCall P i) := by
  refine State.stepCall_rule fun s₁ hstep => ?_
  cases hstep with
  | idle _ => exact h
  | sleeps hp _ => exact (h.polls hp).setCall fun _ _ _ heq => by cases heq
  | @raises s' args n e hp _ =>
    have hlog : Consistent P (s'.handOut.log (.raised (.call i) e)) :=
      (h.polls hp).handOut.log (fun _ _ _ heq => by cases heq) (fun _ _ _ heq => by cases heq)
        fun _ _ _ heq => by cases heq
    exact hlog.setCall fun _ _ _ heq => by cases heq
  | @returns s' args n d hp hw =>
    obtain ⟨hn, rfl⟩ := State.waitForCache_returns hw
    have hall := (hacc.polls hp).2 hn
    have hlog : Consistent P (s'.log (.returned (.call i) args (s'.collect P args))) := by
      refine (h.polls hp).log (fun c' args' d heq => ?_) (fun _ _ _ heq => by cases heq)
        fun _ _ _ heq => by cases heq
      obtain ⟨-, rfl, rfl⟩ := Event.returned.inj heq
      exact collect_eq hall
    refine hlog.setCall fun call d hcall heq => ?_
    rw [State.args_of_polls_call hp hcall, ← CallState.returned.inj heq]
    exact List.mem_append_right _ (List.mem_singleton_self _)

/-- A step of a task: the data of its object changes at the end of `process` only. -/
theorem advance (h : Consistent P s) (hone : OneTask s) (hacc : Accounted P s)
    (hattr : Attributed P s) (hnodup : (s.toSchedule (s.requested P (.task t))).Nodup) :
    Consistent P (s.advance P t) := by
  refine State.advance_rule h fun task s₁ htask hadv => ?_
  have hunsettled (hstage : task.stage.processed = false) := hone.unsettled htask hstage
  have hstage {st : Stage Val} (hst : task.stage = st) (hpast : st.processed = false) :
      task.stage.processed = false := hst ▸ hpast
  have hpolls {s' : State Obj Val} {args : List Obj} {n : Nat}
      (hp : State.Polls P s (.task t) args s' n) : task.stage.processed = false := by
    obtain ⟨-, hst⟩ := State.task_of_polls htask hp
    rcases hst with hst | hst <;> exact hstage hst rfl
  cases hadv with
  | start hc =>
    exact h.totalExecuted.setStage htask (by simp [hc, Stage.processed]) fun _ _ heq => by cases heq
  | @tick st htick =>
    refine h.setStage htask ?_ fun kw n heq => ?_
    · generalize task.stage = old at htick
      cases htick <;> exact id
    · obtain ⟨m, hold⟩ : ∃ m, task.stage = .evaluating kw m := by
        generalize task.stage = old at htick
        cases htick with
        | evaluating kw' m =>
          obtain ⟨rfl, -⟩ := Stage.evaluating.inj heq
          exact ⟨_, rfl⟩
        | opening m => cases heq
        | closing r m => cases heq
      exact h.evaluating t task kw m htask hold
  | opened hc _ =>
    exact h.setStage htask (by simp [hc, Stage.processed]) fun _ _ heq => by cases heq
  | openRaised hc _ => exact h.setStage htask (fun _ => rfl) fun _ _ heq => by cases heq
  | found hc hd =>
    rw [h.fresh _ (hunsettled (hstage hc rfl))] at hd
    cases hd
  | sleeps hp _ =>
    obtain ⟨htask', -⟩ := State.task_of_polls htask hp
    exact (h.polls hp).setStage htask' (by simp [hpolls hp]) fun _ _ heq => by cases heq
  | @raises s' n e hp _ =>
    obtain ⟨htask', -⟩ := State.task_of_polls htask hp
    have hlog : Consistent P (s'.handOut.log (.raised (.task t) e)) :=
      (h.polls hp).handOut.log (fun _ _ _ heq => by cases heq) (fun _ _ _ heq => by cases heq)
        fun _ _ _ heq => by cases heq
    have hone' : OneTask (s'.handOut.log (.raised (.task t) e)) :=
      (hone.polls hp hnodup).handOut.log rfl
    have hx := hone'.unsettled htask' (hpolls hp)
    refine hlog.endProcess ((hacc.polls hp).1.handOut.log rfl (by simp)) (hattr.polls hp).cached htask' hx
      (fun _ _ => rfl) (hlog.fresh _ hx) (.inr ⟨e, rfl, ?_⟩)
    exact List.mem_append_right _ (List.mem_singleton_self _)
  | @returns s' n d hp hw =>
    obtain ⟨hn, rfl⟩ := State.waitForCache_returns hw
    obtain ⟨htask', -⟩ := State.task_of_polls htask hp
    have h' := h.polls hp
    have hall := (hacc.polls hp).2 hn
    have hcollect := collect_eq (P := P) hall
    refine setStage (log (log h' (fun c' args' d heq => ?_) (fun _ _ _ heq => by cases heq)
      fun _ _ _ heq => by cases heq) (fun _ _ _ heq => by cases heq) (fun t' x kw heq => ?_)
      fun _ _ _ heq => by cases heq) htask' (by simp [hpolls hp]) fun kw m heq => ?_
    · obtain ⟨-, rfl, rfl⟩ := Event.returned.inj heq
      exact hcollect
    · obtain ⟨-, rfl, rfl⟩ := Event.evaluate.inj heq
      refine ⟨hall, task.kwargs, h'.kwargs t task htask', ?_⟩
      rw [hcollect]
      rfl
    · obtain ⟨rfl, -⟩ := Stage.evaluating.inj heq
      exact List.mem_append_right _ (List.mem_singleton_self _)
  | @evaluated kw v hc ho =>
    refine h.endProcess hacc hattr.cached htask (hunsettled (hstage hc rfl))
      (fun y hy => Function.update_of_ne hy _ _) (Function.update_self ..) ?_
    exact .inl ⟨kw, h.evaluating t task kw 0 htask hc, ho.symm⟩
  | @evaluateRaised kw e hc ho =>
    have hx := hunsettled (hstage hc rfl)
    exact h.endProcess hacc hattr.cached htask hx (fun _ _ => rfl) (h.fresh _ hx)
      (.inl ⟨kw, h.evaluating t task kw 0 htask hc, ho.symm⟩)
  | closed hc _ => exact h.setStage htask (fun _ => rfl) fun _ _ heq => by cases heq
  | closeRaised hc _ => exact h.setStage htask (fun _ => rfl) fun _ _ heq => by cases heq

theorem initial (P : Inputs Obj Val) (calls : List (List Obj × Kwargs Val)) :
    Consistent P (Cache.initial calls) where
  fresh _ _ := rfl
  kwargs t task htask := by simp [Cache.initial] at htask
  calls i call d hcall hd := by
    obtain ⟨c, -, rfl⟩ : ∃ c, calls[i]? = some c ∧ ⟨c.1, c.2, .idle⟩ = call := by
      simpa [Cache.initial] using hcall
    cases hd
  returned c args d hmem := by simp [Cache.initial] at hmem
  evaluating t task kw n htask := by simp [Cache.initial] at htask
  evaluate t x kw hmem := by simp [Cache.initial] at hmem
  processed t x r hmem := by simp [Cache.initial] at hmem

theorem step (h : Consistent P s) (hone : OneTask s) (hacc : Accounted P s)
    (hattr : Attributed P s) (hnodup : (s.toSchedule (s.requested P c)).Nodup) :
    Consistent P (s.step P c) := by
  cases c with
  | call i => exact h.stepCall hacc
  | task t =>
    have hadvance (s : State Obj Val) (hs : (OneTask.Advanceable P t s ∧ Accounted P s) ∧
        Attributed P s ∧ Consistent P s) (hrun : (s.stage? t).any Stage.running) :
        (OneTask.Advanceable P t (s.advance P t) ∧ Accounted P (s.advance P t)) ∧
          Attributed P (s.advance P t) ∧ Consistent P (s.advance P t) :=
      ⟨⟨hs.1.1.1.advance (hs.1.1.2 hrun), hs.1.2.advance⟩, hs.2.1.advance,
        hs.2.2.advance hs.1.1.1 hs.1.2 hs.2.1 (hs.1.1.2 hrun)⟩
    exact (State.settle_induction hadvance 4 ⟨⟨hone.advance hnodup, hacc.advance⟩, hattr.advance,
      h.advance hone hacc hattr hnodup⟩).2.2

end Consistent

variable {P : Inputs Obj Val} {calls : List (List Obj × Kwargs Val)} {σ : List Caller}

theorem consistent_exec (h : Along (State.step P)
    (fun s c => (s.toSchedule (s.requested P c)).Nodup) (initial calls) σ) :
    Consistent P (exec P calls σ) := by
  have hstep (s : State Obj Val) (c : Caller)
      (hs : (OneTask s ∧ Accounted P s) ∧ Attributed P s ∧ Consistent P s)
      (hnodup : (s.toSchedule (s.requested P c)).Nodup) :
      (OneTask (s.step P c) ∧ Accounted P (s.step P c)) ∧
        Attributed P (s.step P c) ∧ Consistent P (s.step P c) :=
    ⟨⟨hs.1.1.step hnodup, hs.1.2.step⟩, hs.2.1.step, hs.2.2.step hs.1.1 hs.1.2 hs.2.1 hnodup⟩
  exact (run_induction hstep ⟨⟨.initial calls, .initial P calls⟩, .initial P calls,
    .initial P calls⟩ h).2.2

/-- The arguments of a call. -/
def Call.made (call : Call Obj Val) : List Obj × Kwargs Val := (call.args, call.kwargs)

theorem State.made_step {s : State Obj Val} {c : Caller} :
    (s.step P c).calls.map Call.made = s.calls.map Call.made := by
  have hset {s' : State Obj Val} (i : Nat) (st : CallState Val) (hs : s'.calls = s.calls) :
      (s'.setCall i st).calls.map Call.made = s.calls.map Call.made := by
    rw [calls_setCall, hs]
    refine List.ext_getElem? fun j => ?_
    rw [List.getElem?_map, List.getElem?_map, List.getElem?_modify]
    cases s.calls[j]? with
    | none => rfl
    | some call => by_cases hj : i = j <;> simp [hj, Call.made]
  refine step_induction (I := fun s' => s'.calls.map Call.made = s.calls.map Call.made)
    (fun i => ?_) (fun s' t hs' => ?_) rfl
  · refine stepCall_rule (Q := fun s' => s'.calls.map Call.made = s.calls.map Call.made)
      fun s₁ hstep => ?_
    cases hstep with
    | idle _ => rfl
    | sleeps hp _ => exact hset i _ (calls_polls hp)
    | raises hp _ =>
      exact hset i _ ((calls_log ..).trans ((calls_handOut _).trans (calls_polls hp)))
    | returns hp _ => exact hset i _ ((calls_log ..).trans (calls_polls hp))
  · rw [calls_advance]
    exact hs'

theorem made_exec (P : Inputs Obj Val) (calls : List (List Obj × Kwargs Val))
    (σ : List Caller) : (exec P calls σ).calls.map Call.made = calls := by
  refine run_invariant (I := fun s : State Obj Val => s.calls.map Call.made = calls)
    (fun s c hs => State.made_step.trans hs) ?_ σ
  rw [initial, List.map_map]
  exact List.map_id calls

theorem exists_call_of_passed {kwargs : Kwargs Val} (h : (exec P calls σ).Passed kwargs) :
    ∃ call ∈ calls, call.2 = kwargs := by
  obtain ⟨i, call, hcall, rfl⟩ := h
  refine ⟨call.made, ?_, rfl⟩
  rw [← made_exec P calls σ]
  exact List.mem_map_of_mem (List.mem_of_getElem? hcall)

/-- If no call lists an unscheduled object twice, a run of the cache shows one snapshot of the
inputs, whatever the hooks do: every call of `resolve` that has returned has returned its values,
every hook was called with the arguments of a top-level call and its values of the readers, and its
value of an object that was processed is what its hook has returned, or `None` if the hook or the
`resolve` of the readers raised. -/
theorem run_shows_snapshot (P : Inputs Obj Val) (calls : List (List Obj × Kwargs Val))
    (σ : List Caller)
    (h : Along (State.step P) (fun s c => (s.toSchedule (s.requested P c)).Nodup)
      (initial calls) σ) :
    let s := exec P calls σ
    (∀ c args d, .returned c args d ∈ s.history → d = named P s.data args) ∧
      (∀ t x kw, .evaluate t x kw ∈ s.history →
        ∃ call ∈ calls, kw = call.2.merge (named P s.data (P.readers x))) ∧
      ∀ t x r, .processed t x r ∈ s.history →
        s.data x = r.toOption.join ∧ Explained P s.history t x r := by
  have hs := consistent_exec h
  refine ⟨hs.returned, fun t x kw hmem => ?_, fun t x r hmem => (hs.processed t x r hmem).2⟩
  obtain ⟨-, kwargs, hpassed, hkw⟩ := hs.evaluate t x kw hmem
  obtain ⟨call, hcall, rfl⟩ := exists_call_of_passed hpassed
  exact ⟨call, hcall, hkw⟩

theorem run_shows_snapshot_readerChain :
    let s := exec readerChain [([true, false], .empty)] chainResolved
    (∀ c args d, .returned c args d ∈ s.history → d = named readerChain s.data args) ∧
      (∀ t x kw, .evaluate t x kw ∈ s.history →
        ∃ call ∈ [([true, false], (.empty : Kwargs String))],
          kw = call.2.merge (named readerChain s.data (readerChain.readers x))) ∧
      ∀ t x r, .processed t x r ∈ s.history →
        s.data x = r.toOption.join ∧ Explained readerChain s.history t x r :=
  run_shows_snapshot readerChain _ chainResolved nodup_requested_readerChain

/-! ### Calls without repetitions -/

/-- No call of `resolve` can list an object twice. -/
structure DistinctArgs (P : Inputs Obj Val) (calls : List (List Obj × Kwargs Val)) : Prop where
  readers : ∀ x, (P.readers x).Nodup
  calls : ∀ call ∈ calls, call.1.Nodup

theorem DistinctArgs.along (h : DistinctArgs P calls) (σ : List Caller) :
    Along (State.step P) (fun s c => (s.toSchedule (s.requested P c)).Nodup)
      (initial calls) σ := by
  refine along_iff.mpr fun before c after _ => List.Nodup.filter _ ?_
  show ((exec P calls before).requested P c).Nodup
  cases c with
  | call i =>
    rw [State.requested]
    split
    · next args kw hcall =>
      refine h.calls (args, kw) ?_
      rw [← made_exec P calls before]
      exact List.mem_map_of_mem (List.mem_of_getElem? hcall)
    · exact List.nodup_nil
  | task t =>
    rw [State.requested]
    split
    · split
      · exact h.readers _
      · exact List.nodup_nil
    · exact List.nodup_nil

end NexusSdk.Cache
