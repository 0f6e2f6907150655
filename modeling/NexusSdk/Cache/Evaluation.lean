import NexusSdk.Cache.Accounting
import NexusSdk.Cache.Failures
import NexusSdk.Lib.Dependency

/-! Without failing hooks, the cache computes the values of the input graph.  The value of an input
is its hook's result on the run's keyword arguments, extended by the values of its readers under
their aliases.  Every event of every run agrees with these values. -/

namespace NexusSdk.Cache

open Lib

variable {Obj Val : Type} [DecidableEq Obj]

/-- No hook fails, and `_read_input` and `_process_input` are functions of their arguments. -/
structure Functional (P : Inputs Obj Val) (f : Obj → Kwargs Val → Option Val) : Prop where
  opens : ∀ t x, (P.contextOpen t x).outcome = .ok ()
  evaluates : ∀ t x kw, (P.evaluate t x kw).outcome = .ok (f x kw)
  closes : ∀ t x, (P.contextClose t x).outcome = .ok ()

/-- The values of the inputs `xs` under their aliases. -/
def named (P : Inputs Obj Val) (value : Obj → Option Val) (xs : List Obj) : Kwargs Val :=
  .ofList (xs.map fun x => (P.classAlias x, value x))

/-- The recursive evaluation of the input graph. -/
noncomputable def inputValue (P : Inputs Obj Val) (f : Obj → Kwargs Val → Option Val)
    (kwargs : Kwargs Val) (hac : Acyclic P.readers) : Obj → Option Val :=
  evaluate (fun x inputs =>
    f x (kwargs.merge (.ofList (inputs.map fun input => (P.classAlias input.1, input.2))))) hac

omit [DecidableEq Obj] in
theorem inputValue_eq {P : Inputs Obj Val} {f : Obj → Kwargs Val → Option Val}
    {kwargs : Kwargs Val} (hac : Acyclic P.readers) (x : Obj) :
    inputValue P f kwargs hac x =
      f x (kwargs.merge (named P (inputValue P f kwargs hac) (P.readers x))) := by
  rw [inputValue, evaluate_eq, List.map_map]
  rfl

/-- What an event says under the values `value`: a call returns the values of its arguments and does
not raise; an input is evaluated on the values of its own readers, after they have been processed;
and its result is its value. -/
def Agrees (P : Inputs Obj Val) (value : Obj → Option Val) (kwargs : Kwargs Val)
    (before : List (Event Obj Val)) : Event Obj Val → Prop
  | .resolve _ _ => True
  | .returned _ args result => result = named P value args
  | .raised _ _ => False
  | .evaluate _ x kw =>
    kw = kwargs.merge (named P value (P.readers x)) ∧ ∀ y ∈ P.readers x, Succeeded before y
  | .processed _ x result => result = .ok (value x)

def Stage.Agrees (P : Inputs Obj Val) (value : Obj → Option Val) (kwargs : Kwargs Val) (x : Obj) :
    Stage Val → Prop
  | .evaluating kw _ => kw = kwargs.merge (named P value (P.readers x))
  | .closing r _ | .done r => r = .ok (value x)
  | _ => True

structure Evaluated (P : Inputs Obj Val) (value : Obj → Option Val) (kwargs : Kwargs Val)
    (s : State Obj Val) : Prop where
  callKwargs : ∀ (i : Nat) (call : Call Obj Val), s.calls[i]? = some call → call.kwargs = kwargs
  taskKwargs : ∀ (t : Nat) (task : Task Obj Val), s.tasks[t]? = some task → task.kwargs = kwargs
  stages : ∀ (t : Nat) (task : Task Obj Val), s.tasks[t]? = some task →
    task.stage.Agrees P value kwargs task.obj
  data : ∀ x, s.data x = none ∨ s.data x = value x
  cached : ∀ x, s.cache.contains x = true → s.data x = value x ∧ Succeeded s.history x
  events : Justified (Agrees P value kwargs) s.history

namespace Evaluated

variable {P : Inputs Obj Val} {value : Obj → Option Val} {kwargs : Kwargs Val}
  {s s' : State Obj Val} {t i n : Nat} {x : Obj} {args : List Obj} {c : Caller}
  {task : Task Obj Val}

theorem totalExecuted {k : Nat} (h : Evaluated P value kwargs s) :
    Evaluated P value kwargs { s with totalExecuted := k } := ⟨h.1, h.2, h.3, h.4, h.5, h.6⟩

theorem log {e : Event Obj Val} (h : Evaluated P value kwargs s)
    (he : Cache.Agrees P value kwargs s.history e) : Evaluated P value kwargs (s.log e) where
  callKwargs := h.callKwargs
  taskKwargs := h.taskKwargs
  stages := h.stages
  data := h.data
  cached x hx := ⟨(h.cached x hx).1, (h.cached x hx).2.append _⟩
  events := h.events.snoc he

theorem setStage {st : Stage Val} (h : Evaluated P value kwargs s)
    (hst : ∀ x, s.obj? t = some x → st.Agrees P value kwargs x) :
    Evaluated P value kwargs (s.setStage t st) where
  callKwargs := h.callKwargs
  taskKwargs t' task' ht' := by
    obtain ⟨task, htask, -, hkw, -⟩ := State.task_setStage ht'
    exact hkw.trans (h.taskKwargs t' task htask)
  stages t' task' ht' := by
    obtain ⟨task, htask, hobj, -, hstage⟩ := State.task_setStage ht'
    rw [hobj, hstage]
    split
    · next heq => exact hst task.obj (heq ▸ State.obj?_of_task htask)
    · exact h.stages t' task htask
  data := h.data
  cached := h.cached
  events := h.events

theorem setStage_closing (h : Evaluated P value kwargs s) (htask : s.tasks[t]? = some task)
    (n : Nat) : Evaluated P value kwargs (s.setStage t (.closing (.ok (value task.obj)) n)) := by
  refine h.setStage fun x hx => ?_
  obtain rfl : task.obj = x := by simpa [State.obj?_of_task htask] using hx
  exact rfl

theorem setCall {st : CallState Val} (h : Evaluated P value kwargs s) :
    Evaluated P value kwargs (s.setCall i st) where
  callKwargs j call hcall := by
    rw [State.calls_setCall, List.getElem?_modify] at hcall
    obtain ⟨old, hold, rfl⟩ := Option.map_eq_some_iff.mp hcall
    have := h.callKwargs j old hold
    split <;> exact this
  taskKwargs := h.taskKwargs
  stages := h.stages
  data := h.data
  cached := h.cached
  events := h.events

theorem schedule (h : Evaluated P value kwargs s) :
    Evaluated P value kwargs (s.schedule c args kwargs) where
  callKwargs i call hcall := h.callKwargs i call (by simpa using hcall)
  taskKwargs t task htask := by
    rcases State.task_schedule htask with htask | ⟨k, y, -, -, rfl⟩
    · exact h.taskKwargs t task htask
    · rfl
  stages t task htask := by
    rcases State.task_schedule htask with htask | ⟨k, y, -, -, rfl⟩
    · exact h.stages t task htask
    · trivial
  data x := by simpa using h.data x
  cached x hx := by
    rw [State.cache_schedule] at hx
    rw [State.data_schedule, State.history_schedule]
    exact ⟨(h.cached x hx).1, (h.cached x hx).2.append _⟩
  events := by
    rw [State.history_schedule]
    exact h.events.snoc trivial

theorem store (h : Evaluated P value kwargs s) :
    Evaluated P value kwargs { s with data := Function.update s.data x (value x) } where
  callKwargs := h.callKwargs
  taskKwargs := h.taskKwargs
  stages := h.stages
  data y := by
    by_cases hy : y = x
    · subst hy
      simp
    · simpa [hy] using h.data y
  cached y hy := by
    refine ⟨?_, (h.cached y hy).2⟩
    by_cases heq : y = x
    · subst heq
      simp
    · simpa [heq] using (h.cached y hy).1
  events := h.events

theorem endProcess (h : Evaluated P value kwargs s) (htask : s.tasks[t]? = some task)
    (hdata : s.data task.obj = value task.obj) :
    Evaluated P value kwargs (s.endProcess P t task.obj (.ok (value task.obj))) := by
  have hlog : Evaluated P value kwargs (s.log (.processed t task.obj (.ok (value task.obj)))) :=
    h.log rfl
  have hset := hlog.setStage_closing htask (P.contextClose t task.obj).suspensions
  refine ⟨hset.callKwargs, hset.taskKwargs, hset.stages, hset.data, fun x hx => ?_, hset.events⟩
  rw [State.cache_endProcess, Dict.contains_set, Bool.or_eq_true, decide_eq_true_iff] at hx
  rcases hx with rfl | hx
  · exact ⟨hdata, t, value task.obj, by simp⟩
  · exact hset.cached x hx

theorem firstFailure_eq_none (h : Evaluated P value kwargs s) : s.firstFailure P = none := by
  rw [State.firstFailure_eq_none]
  intro x t e _ hstage
  obtain ⟨task, htask, hdone⟩ := Option.map_eq_some_iff.mp hstage
  have hagrees := h.stages t task htask
  rw [hdone] at hagrees
  cases hagrees

theorem collect_eq (h : Evaluated P value kwargs s)
    (hall : ∀ x ∈ args, s.cache.contains x = true) : s.collect P args = named P value args := by
  unfold State.collect named
  rw [List.filter_eq_self.mpr hall]
  congr 1
  exact List.map_congr_left fun x hx => by rw [(h.cached x (hall x hx)).1]

theorem polls (h : Evaluated P value kwargs s) (hp : State.Polls P s c args s' n) :
    Evaluated P value kwargs s' := by
  cases hp with
  | again _ => exact h
  | @first kw harr =>
    have hkw : kw = kwargs := by
      cases c with
      | call i => exact h.callKwargs i _ harr
      | task t =>
        obtain ⟨x, ht, -, -⟩ := harr
        exact h.taskKwargs t _ ht
    rw [hkw]
    exact h.schedule

theorem stepCall (h : Evaluated P value kwargs s) (hacc : Accounted P s) :
    Evaluated P value kwargs (s.stepCall P i) := by
  refine State.stepCall_rule fun s₁ hstep => ?_
  cases hstep with
  | idle _ => exact h
  | sleeps hp _ => exact (h.polls hp).setCall
  | raises hp hw =>
    have hfail := (State.waitForCache_raises hw).2
    rw [(h.polls hp).firstFailure_eq_none] at hfail
    cases hfail
  | returns hp hw =>
    obtain ⟨hn, rfl⟩ := State.waitForCache_returns hw
    refine setCall (log (h.polls hp) ?_)
    exact (h.polls hp).collect_eq ((hacc.polls hp).2 hn)

theorem advance {f : Obj → Kwargs Val → Option Val} (hP : Functional P f)
    (hvalue : ∀ x, value x = f x (kwargs.merge (named P value (P.readers x))))
    (h : Evaluated P value kwargs s) (hacc : Accounted P s) :
    Evaluated P value kwargs (s.advance P t) := by
  refine State.advance_rule h fun task s₁ htask hadv => ?_
  have hagrees := h.stages t task htask
  have hobj {x : Obj} (hx : s.obj? t = some x) : task.obj = x := by
    simpa [State.obj?_of_task htask] using hx
  cases hadv with
  | start hc => exact h.totalExecuted.setStage fun _ _ => trivial
  | tick htick =>
    refine h.setStage fun x hx => ?_
    obtain rfl := hobj hx
    generalize task.stage = old at htick hagrees
    cases htick <;> exact hagrees
  | opened _ _ => exact h.setStage fun _ _ => trivial
  | openRaised _ ho => rw [hP.opens] at ho; cases ho
  | @found v _ hd =>
    have hv : some v = value task.obj := by simpa [hd] using h.data task.obj
    rw [hv] at hd ⊢
    exact h.endProcess htask hd
  | sleeps hp _ => exact (h.polls hp).setStage fun _ _ => trivial
  | raises hp hw =>
    have hfail := (State.waitForCache_raises hw).2
    rw [(h.polls hp).firstFailure_eq_none] at hfail
    cases hfail
  | returns hp hw =>
    obtain ⟨hn, rfl⟩ := State.waitForCache_returns hw
    have hcached := (hacc.polls hp).2 hn
    have h' := h.polls hp
    have hkw := h.taskKwargs t task htask
    have hcollect := h'.collect_eq hcached
    refine setStage (log (log h' ?_) ?_) fun x hx => ?_
    · exact hcollect
    · refine ⟨by rw [hkw, hcollect], fun y hy => ?_⟩
      exact (h'.cached y (hcached y hy)).2.append _
    · obtain ⟨htask', -⟩ := State.task_of_polls htask hp
      obtain rfl : task.obj = x := by simpa [State.obj?_of_task htask'] using hx
      exact by rw [hkw, hcollect]; rfl
  | @evaluated kw v hc ho =>
    rw [hc] at hagrees
    have hv : v = value task.obj := by
      rw [hP.evaluates, Except.ok.injEq] at ho
      rw [← ho, hvalue, show kw = _ from hagrees]
    rw [hv]
    exact endProcess h.store htask (by simp)
  | evaluateRaised _ ho => rw [hP.evaluates] at ho; cases ho
  | closed hc _ =>
    refine h.setStage fun x hx => ?_
    obtain rfl := hobj hx
    rw [hc] at hagrees
    exact hagrees
  | closeRaised _ ho => rw [hP.closes] at ho; cases ho

theorem initial (value : Obj → Option Val) {calls : List (List Obj × Kwargs Val)}
    (hcalls : ∀ call ∈ calls, call.2 = kwargs) :
    Evaluated P value kwargs (Cache.initial calls) where
  callKwargs i call hcall := by
    obtain ⟨c, hc, rfl⟩ : ∃ c, calls[i]? = some c ∧ ⟨c.1, c.2, .idle⟩ = call := by
      simpa [Cache.initial] using hcall
    exact hcalls c (List.mem_of_getElem? hc)
  taskKwargs t task htask := by simp [Cache.initial] at htask
  stages t task htask := by simp [Cache.initial] at htask
  data x := .inl rfl
  cached x hx := by simp [Cache.initial] at hx
  events := .nil _

end Evaluated

end NexusSdk.Cache
