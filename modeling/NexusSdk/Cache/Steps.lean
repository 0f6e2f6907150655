import NexusSdk.Cache.Model

/-! What one step can do.  `advance_cases` and `stepCall_cases` list the effects of a step once,
each with the condition under which it occurs; `advance_rule` and `stepCall_rule` are the case
analysis that proves every invariant of the cache. -/

namespace NexusSdk.Cache

open Lib

variable {Obj Val : Type}

/-- The stages in which a task has not begun to evaluate its object. -/
def Stage.early : Stage Val → Bool
  | .created | .opening _ | .entered | .resolving _ => true
  | _ => false

def CallState.ended : CallState Val → Bool
  | .returned _ | .raised _ => true
  | _ => false

theorem early_of_polls {st : Stage Val} {n : Nat} (h : st = .entered ∨ st = .resolving n) :
    st.early = true := by
  rcases h with rfl | rfl <;> rfl

namespace State

variable {P : Inputs Obj Val} {s : State Obj Val} {t t' i : Nat} {x y : Obj} {xs args : List Obj}
  {kw : Kwargs Val} {by_ : Caller} {st : Stage Val}

def obj? (s : State Obj Val) (t : Nat) : Option Obj := s.tasks[t]?.map Task.obj

def kwargs? (s : State Obj Val) (t : Nat) : Option (Kwargs Val) := s.tasks[t]?.map Task.kwargs

/-! ### Frames of the elementary updates -/

section Updates

variable (s) (t) (stage : Stage Val) (e : Event Obj Val)

@[simp] theorem tasks_setStage : (s.setStage t stage).tasks =
    s.tasks.modify t fun task => { task with stage } := rfl
@[simp] theorem history_setStage : (s.setStage t stage).history = s.history := rfl
@[simp] theorem totalExecuted_setStage :
    (s.setStage t stage).totalExecuted = s.totalExecuted := rfl

@[simp] theorem stage?_setStage : (s.setStage t stage).stage? t' =
    if t' = t then (s.stage? t).map fun _ => stage else s.stage? t' := by
  simp only [stage?, tasks_setStage, List.getElem?_modify]
  by_cases h : t' = t
  · subst h
    cases s.tasks[t']? <;> simp
  · simp [h, Ne.symm h]

@[simp] theorem obj?_setStage : (s.setStage t stage).obj? t' = s.obj? t' := by
  simp only [obj?, tasks_setStage, List.getElem?_modify]
  by_cases h : t = t' <;> cases s.tasks[t']? <;> simp [h]

@[simp] theorem tasks_log : (s.log e).tasks = s.tasks := rfl
@[simp] theorem cache_log : (s.log e).cache = s.cache := rfl
@[simp] theorem scheduled_log : (s.log e).scheduled = s.scheduled := rfl
@[simp] theorem data_log : (s.log e).data = s.data := rfl
@[simp] theorem calls_log : (s.log e).calls = s.calls := rfl
@[simp] theorem history_log : (s.log e).history = s.history ++ [e] := rfl
@[simp] theorem totalExecuted_log : (s.log e).totalExecuted = s.totalExecuted := rfl
@[simp] theorem stage?_log : (s.log e).stage? t' = s.stage? t' := rfl
@[simp] theorem obj?_log : (s.log e).obj? t' = s.obj? t' := rfl

@[simp] theorem tasks_handOut : s.handOut.tasks = s.tasks := rfl
@[simp] theorem cache_handOut : s.handOut.cache = s.cache := rfl
@[simp] theorem scheduled_handOut : s.handOut.scheduled = s.scheduled := rfl
@[simp] theorem data_handOut : s.handOut.data = s.data := rfl
@[simp] theorem calls_handOut : s.handOut.calls = s.calls := rfl
@[simp] theorem history_handOut : s.handOut.history = s.history := rfl
@[simp] theorem totalExecuted_handOut : s.handOut.totalExecuted = s.totalExecuted := rfl
@[simp] theorem stage?_handOut : s.handOut.stage? t' = s.stage? t' := rfl
@[simp] theorem obj?_handOut : s.handOut.obj? t' = s.obj? t' := rfl

variable (d : Obj → Option Val) (k : Nat)

@[simp] theorem stage?_data : ({ s with data := d } : State Obj Val).stage? t' = s.stage? t' := rfl
@[simp] theorem stage?_totalExecuted :
    ({ s with totalExecuted := k } : State Obj Val).stage? t' = s.stage? t' := rfl
@[simp] theorem obj?_totalExecuted :
    ({ s with totalExecuted := k } : State Obj Val).obj? t' = s.obj? t' := rfl

end Updates

section Calls

variable (s) (i) (c : CallState Val)

@[simp] theorem calls_setCall : (s.setCall i c).calls =
    s.calls.modify i fun call => { call with state := c } := rfl

end Calls

theorem task_setStage {task' : Task Obj Val}
    (h : (s.setStage t st).tasks[t']? = some task') :
    ∃ task, s.tasks[t']? = some task ∧ task'.obj = task.obj ∧ task'.kwargs = task.kwargs ∧
      task'.stage = if t = t' then st else task.stage := by
  rw [tasks_setStage, List.getElem?_modify] at h
  obtain ⟨task, htask, rfl⟩ := Option.map_eq_some_iff.mp h
  exact ⟨task, htask, by split <;> rfl, by split <;> rfl, by split <;> rfl⟩

theorem exists_task_of_obj? (h : s.obj? t = some x) :
    ∃ task, s.tasks[t]? = some task ∧ task.obj = x := by
  simpa [obj?] using h

theorem obj?_of_task {task : Task Obj Val} (h : s.tasks[t]? = some task) :
    s.obj? t = some task.obj := by simp [obj?, h]

theorem stage?_of_task {task : Task Obj Val} (h : s.tasks[t]? = some task) :
    s.stage? t = some task.stage := by simp [stage?, h]

variable [DecidableEq Obj]

section EndProcess

variable (P s t x) (r : Except PyExc (Option Val))

@[simp] theorem cache_endProcess : (s.endProcess P t x r).cache =
    s.cache.set x r.toOption.join := rfl
@[simp] theorem scheduled_endProcess : (s.endProcess P t x r).scheduled = s.scheduled := rfl
@[simp] theorem history_endProcess : (s.endProcess P t x r).history =
    s.history ++ [.processed t x r] := rfl
@[simp] theorem stage?_endProcess : (s.endProcess P t x r).stage? t' =
    if t' = t then (s.stage? t).map fun _ => .closing r (P.contextClose t x).suspensions
    else s.stage? t' := stage?_setStage ..
@[simp] theorem obj?_endProcess : (s.endProcess P t x r).obj? t' = s.obj? t' := obj?_setStage ..

end EndProcess

/-! ### `schedule` -/

section Schedule

def createTasks (kw : Kwargs Val) (s : State Obj Val) (xs : List Obj) : State Obj Val :=
  xs.foldl (createTask kw) s

theorem schedule_eq : s.schedule by_ args kw =
    createTasks kw (s.log (.resolve by_ args)) (s.toSchedule args) := rfl

theorem createTasks_frame (s : State Obj Val) (xs : List Obj) :
    createTasks kw s xs =
      { s with
        tasks := s.tasks ++ xs.map fun x => ⟨x, kw, .created⟩
        scheduled := (createTasks kw s xs).scheduled } := by
  induction xs generalizing s with
  | nil => simp [createTasks]
  | cons x xs ih =>
    have h := ih (s.createTask kw x)
    simp only [createTasks, List.foldl_cons] at h ⊢
    rw [h]
    simp [createTask]

theorem get?_createTasks_of_not_mem (s : State Obj Val) (hx : x ∉ xs) :
    (createTasks kw s xs).scheduled.get? x = s.scheduled.get? x := by
  induction xs generalizing s with
  | nil => rfl
  | cons y xs ih =>
    rw [List.mem_cons, not_or] at hx
    rw [createTasks, List.foldl_cons]
    refine (ih _ hx.2).trans ?_
    simp [createTask, hx.1]

theorem get?_createTasks_of_mem (kw : Kwargs Val) (s : State Obj Val) (hx : x ∈ xs) :
    ∃ k, xs[k]? = some x ∧
      (createTasks kw s xs).scheduled.get? x = some (s.tasks.length + k) := by
  induction xs generalizing s with
  | nil => simp at hx
  | cons y xs ih =>
    by_cases hmem : x ∈ xs
    · obtain ⟨k, hk, hget⟩ := ih (s.createTask kw y) hmem
      refine ⟨k + 1, by simpa using hk, hget.trans ?_⟩
      simp [createTask]
      omega
    · obtain rfl : x = y := by simpa [hmem] using hx
      refine ⟨0, rfl, (get?_createTasks_of_not_mem _ hmem).trans ?_⟩
      simp [createTask]

theorem mem_toSchedule : x ∈ s.toSchedule args ↔ x ∈ args ∧ s.scheduled.contains x = false := by
  simp [toSchedule]

variable (s by_ args kw)

theorem tasks_schedule : (s.schedule by_ args kw).tasks =
    s.tasks ++ (s.toSchedule args).map fun x => ⟨x, kw, .created⟩ := by
  rw [schedule_eq, createTasks_frame, tasks_log]

@[simp] theorem cache_schedule : (s.schedule by_ args kw).cache = s.cache := by
  rw [schedule_eq, createTasks_frame, cache_log]

@[simp] theorem data_schedule : (s.schedule by_ args kw).data = s.data := by
  rw [schedule_eq, createTasks_frame, data_log]

@[simp] theorem calls_schedule : (s.schedule by_ args kw).calls = s.calls := by
  rw [schedule_eq, createTasks_frame, calls_log]

@[simp] theorem history_schedule :
    (s.schedule by_ args kw).history = s.history ++ [.resolve by_ args] := by
  rw [schedule_eq, createTasks_frame, history_log]

@[simp] theorem totalExecuted_schedule :
    (s.schedule by_ args kw).totalExecuted = s.totalExecuted := by
  rw [schedule_eq, createTasks_frame, totalExecuted_log]

variable {s by_ args kw}

/-- A task after `schedule` was there before, or is a new one of an object not yet scheduled. -/
theorem task_schedule {task : Task Obj Val} (h : (s.schedule by_ args kw).tasks[t]? = some task) :
    s.tasks[t]? = some task ∨
      ∃ k x, t = s.tasks.length + k ∧ (s.toSchedule args)[k]? = some x ∧
        task = ⟨x, kw, .created⟩ := by
  rw [tasks_schedule, List.getElem?_append] at h
  split at h
  · exact .inl h
  · next hlt =>
    rw [List.getElem?_map, Option.map_eq_some_iff] at h
    obtain ⟨x, hx, rfl⟩ := h
    exact .inr ⟨t - s.tasks.length, x, by omega, hx, rfl⟩

theorem task_schedule_of_some {task : Task Obj Val} (h : s.tasks[t]? = some task) :
    (s.schedule by_ args kw).tasks[t]? = some task := by
  rw [tasks_schedule, List.getElem?_append_left (List.getElem?_eq_some_iff.mp h).1, h]

theorem task_schedule_new {k : Nat} (h : (s.toSchedule args)[k]? = some x) :
    (s.schedule by_ args kw).tasks[s.tasks.length + k]? = some ⟨x, kw, .created⟩ := by
  rw [tasks_schedule, List.getElem?_append_right (by omega), Nat.add_sub_cancel_left,
    List.getElem?_map, h, Option.map_some]

theorem obj?_schedule_of_some (h : s.obj? t = some x) :
    (s.schedule by_ args kw).obj? t = some x := by
  obtain ⟨task, htask, rfl⟩ := exists_task_of_obj? h
  exact obj?_of_task (task_schedule_of_some htask)

theorem stage?_schedule_of_some (h : s.stage? t = some st) :
    (s.schedule by_ args kw).stage? t = some st := by
  obtain ⟨task, htask, rfl⟩ := Option.map_eq_some_iff.mp h
  exact stage?_of_task (task_schedule_of_some htask)

theorem get?_schedule_of_some (h : s.scheduled.get? x = some t) :
    (s.schedule by_ args kw).scheduled.get? x = some t := by
  rw [schedule_eq, get?_createTasks_of_not_mem]
  · exact h
  · simp [mem_toSchedule, Dict.contains_of_get? h]

theorem get?_schedule (h : (s.schedule by_ args kw).scheduled.get? x = some t) :
    s.scheduled.get? x = some t ∨
      ∃ k, t = s.tasks.length + k ∧ (s.toSchedule args)[k]? = some x := by
  by_cases hx : x ∈ s.toSchedule args
  · obtain ⟨k, hk, hget⟩ := get?_createTasks_of_mem kw (s.log (.resolve by_ args)) hx
    rw [schedule_eq, hget] at h
    exact .inr ⟨k, (Option.some.inj h).symm, hk⟩
  · rw [schedule_eq, get?_createTasks_of_not_mem _ hx] at h
    exact .inl h

theorem contains_schedule : (s.schedule by_ args kw).scheduled.contains x = true ↔
    s.scheduled.contains x = true ∨ x ∈ args := by
  rw [schedule_eq]
  by_cases hx : x ∈ s.toSchedule args
  · obtain ⟨k, -, hget⟩ := get?_createTasks_of_mem kw (s.log (.resolve by_ args)) hx
    simp [Dict.contains_of_get? hget, (mem_toSchedule.mp hx).1]
  · rw [Dict.contains, get?_createTasks_of_not_mem _ hx, scheduled_log, ← Dict.contains]
    rw [mem_toSchedule, not_and, Bool.not_eq_false] at hx
    exact ⟨.inl, fun h => h.elim id hx⟩

end Schedule

/-! ### `_wait_for_cache` -/

section Wait

variable {n m : Nat} {d : Kwargs Val} {e : PyExc}

theorem numCached_eq_length : s.numCached args = args.length ↔
    ∀ x ∈ args, s.cache.contains x = true :=
  List.countP_eq_length

omit [DecidableEq Obj] in
theorem exception_cases (s : State Obj Val) (t : Nat) (e : PyExc) :
    s.exception t e = e ∨ e.isCancelled = true ∧ s.exception t e = .newCancelled := by
  unfold exception
  split
  · next h => exact .inr ⟨(Bool.and_eq_true _ _ ▸ h).2, rfl⟩
  · exact .inl rfl

theorem firstFailure_eq_none : s.firstFailure P = none ↔
    ∀ x t e, s.scheduled.get? x = some t → s.stage? t ≠ some (.done (.error e)) := by
  rw [firstFailure, Option.map_eq_none_iff, failed?, List.findSome?_eq_none_iff]
  constructor
  · intro h x t e hget hstage
    have := h (x, t) (Dict.mem_items_iff.mpr hget)
    simp [hstage] at this
  · rintro h ⟨x, t⟩ hmem
    dsimp only
    split
    · next e hstage => exact absurd hstage (h x t e (Dict.mem_items_iff.mp hmem))
    · rfl

theorem failed?_eq_some (h : s.failed? = some (x, t, e)) :
    s.scheduled.get? x = some t ∧ s.stage? t = some (.done (.error e)) := by
  obtain ⟨⟨y, t'⟩, hmem, h⟩ := List.exists_of_findSome?_eq_some h
  dsimp only at h
  split at h
  · next e' hstage =>
    obtain ⟨rfl, rfl, rfl⟩ : y = x ∧ t' = t ∧ e' = e := by simpa using h
    exact ⟨Dict.mem_items_iff.mp hmem, hstage⟩
  · cases h

theorem exists_of_firstFailure (h : s.firstFailure P = some e) :
    ∃ x t e', s.scheduled.get? x = some t ∧ s.stage? t = some (.done (.error e')) ∧
      e = failure P x (s.exception t e') := by
  obtain ⟨⟨x, t, e'⟩, hfailed, rfl⟩ := Option.map_eq_some_iff.mp h
  obtain ⟨hget, hstage⟩ := failed?_eq_some hfailed
  exact ⟨x, t, e', hget, hstage, rfl⟩

theorem waitForCache_returns (h : s.waitForCache P args n = .returns d) :
    n = args.length ∧ d = s.collect P args := by
  unfold waitForCache at h
  split at h
  · next hn => exact ⟨hn, (Wait.returns.inj h).symm⟩
  · split at h <;> cases h

theorem waitForCache_raises (h : s.waitForCache P args n = .raises e) :
    n ≠ args.length ∧ s.firstFailure P = some e := by
  unfold waitForCache at h
  split at h
  · cases h
  · next hn =>
    split at h
    · next hf => exact ⟨hn, hf.trans (congrArg some (Wait.raises.inj h))⟩
    · cases h

theorem waitForCache_sleeps (h : s.waitForCache P args n = .sleeps m) :
    n ≠ args.length ∧ s.firstFailure P = none ∧ m = s.numCached args := by
  unfold waitForCache at h
  split at h
  · cases h
  · next hn =>
    split at h
    · cases h
    · next hf => exact ⟨hn, hf, (Wait.sleeps.inj h).symm⟩

end Wait

/-! ### The callers of `resolve` -/

section Callers

variable {c : Caller} {n : Nat}

variable (P s) in
/-- The next step of caller `c` calls `resolve(*args, **kw)`, unless a hook suspends before. -/
def Arrives : Caller → List Obj → Kwargs Val → Prop
  | .call i, args, kw => s.calls[i]? = some ⟨args, kw, .idle⟩
  | .task t, args, kw => ∃ x, s.tasks[t]? = some ⟨x, kw, .entered⟩ ∧ s.data x = none ∧
      args = P.readers x

variable (P s) in
/-- Caller `c` sleeps in `resolve(*args)` and has counted `n` cached inputs before. -/
def Sleeps : Caller → List Obj → Nat → Prop
  | .call i, args, n => ∃ kw, s.calls[i]? = some ⟨args, kw, .polling n⟩
  | .task t, args, n => ∃ x kw, s.tasks[t]? = some ⟨x, kw, .resolving n⟩ ∧ args = P.readers x

variable (P s) in
/-- In a step from `s`, caller `c` comes to the loop test of `_wait_for_cache` in state `s'` with
the count `n`. -/
inductive Polls (c : Caller) (args : List Obj) : State Obj Val → Nat → Prop
  | first {kw : Kwargs Val} (h : Arrives P s c args kw) : Polls c args (s.schedule c args kw) 0
  | again {n : Nat} (h : Sleeps P s c args n) : Polls c args s n

theorem cache_polls {s' : State Obj Val} (hp : Polls P s c args s' n) : s'.cache = s.cache := by
  cases hp with
  | first _ => exact cache_schedule ..
  | again _ => rfl

theorem calls_polls {s' : State Obj Val} (hp : Polls P s c args s' n) : s'.calls = s.calls := by
  cases hp with
  | first _ => exact calls_schedule ..
  | again _ => rfl

theorem call_of_polls {s' : State Obj Val} {call : Call Obj Val} (hc : s.calls[i]? = some call)
    (h : Polls P s (.call i) args s' n) :
    call.args = args ∧ (call.state = .idle ∨ call.state = .polling n) := by
  cases h with
  | first h =>
    obtain rfl := Option.some.inj (hc.symm.trans h)
    exact ⟨rfl, .inl rfl⟩
  | again h =>
    obtain ⟨kw, h⟩ := h
    obtain rfl := Option.some.inj (hc.symm.trans h)
    exact ⟨rfl, .inr rfl⟩

theorem args_of_polls_call {s' : State Obj Val} {call : Call Obj Val}
    (h : Polls P s (.call i) args s' n) (hc : s'.calls[i]? = some call) : call.args = args := by
  rw [calls_polls h] at hc
  exact (call_of_polls hc h).1

theorem task_of_polls {s' : State Obj Val} {task : Task Obj Val} (ht : s.tasks[t]? = some task)
    (h : Polls P s (.task t) args s' n) :
    s'.tasks[t]? = some task ∧ (task.stage = .entered ∨ task.stage = .resolving n) := by
  cases h with
  | first h =>
    obtain ⟨x, h, -, -⟩ := h
    obtain rfl := Option.some.inj (ht.symm.trans h)
    exact ⟨task_schedule_of_some ht, .inl rfl⟩
  | again h =>
    obtain ⟨x, kw, h, -⟩ := h
    obtain rfl := Option.some.inj (ht.symm.trans h)
    exact ⟨ht, .inr rfl⟩

end Callers

/-! ### Frames of the sleeping callers -/

section Sleeps

variable {c : Caller} {n : Nat} {e : Event Obj Val} {r : Except PyExc (Option Val)}

omit [DecidableEq Obj] in
theorem sleeps_setStage (h : Sleeps P (s.setStage t st) c args n) :
    (c ≠ .task t ∧ Sleeps P s c args n) ∨
      (c = .task t ∧ st = .resolving n ∧ ∃ x, s.obj? t = some x ∧ args = P.readers x) := by
  cases c with
  | call i => exact .inl ⟨by simp, h⟩
  | task t' =>
    obtain ⟨x, kw, ht', hargs⟩ := h
    rw [tasks_setStage, List.getElem?_modify] at ht'
    by_cases heq : t = t'
    · subst heq
      obtain ⟨task, htask, hmod⟩ := Option.map_eq_some_iff.mp ht'
      simp only [if_true, Task.mk.injEq] at hmod
      exact .inr ⟨rfl, hmod.2.2, x, by simp [obj?, htask, hmod.1], hargs⟩
    · simp only [heq, if_false, id_map'] at ht'
      exact .inl ⟨by simpa using Ne.symm heq, x, kw, ht', hargs⟩

omit [DecidableEq Obj] in
theorem sleeps_setCall {st : CallState Val} (h : Sleeps P (s.setCall i st) c args n) :
    (c ≠ .call i ∧ Sleeps P s c args n) ∨
      (c = .call i ∧ st = .polling n ∧ ∃ call, s.calls[i]? = some call ∧ call.args = args) := by
  cases c with
  | task t' => exact .inl ⟨by simp, h⟩
  | call j =>
    obtain ⟨kw, hj⟩ := h
    rw [calls_setCall, List.getElem?_modify] at hj
    by_cases heq : i = j
    · subst heq
      obtain ⟨call, hcall, hmod⟩ := Option.map_eq_some_iff.mp hj
      simp only [if_true, Call.mk.injEq] at hmod
      exact .inr ⟨rfl, hmod.2.2, call, hcall, hmod.1⟩
    · simp only [heq, if_false, id_map'] at hj
      exact .inl ⟨by simpa using Ne.symm heq, kw, hj⟩

theorem sleeps_schedule {ys : List Obj} (h : Sleeps P (s.schedule by_ ys kw) c args n) :
    Sleeps P s c args n := by
  cases c with
  | call i => simpa only [Sleeps, calls_schedule] using h
  | task t =>
    obtain ⟨x, kw', ht, hargs⟩ := h
    rcases task_schedule ht with ht | ⟨k, y, -, -, heq⟩
    · exact ⟨x, kw', ht, hargs⟩
    · simp at heq

omit [DecidableEq Obj] in
theorem not_sleeps_initial {calls : List (List Obj × Kwargs Val)} :
    ¬ Sleeps P (initial calls) c args n := by
  cases c with
  | call i => rintro ⟨kw, h⟩; simp [initial] at h
  | task t => rintro ⟨x, kw, h, -⟩; simp [initial] at h

theorem sleeps_endProcess (h : Sleeps P (s.endProcess P t x r) c args n) :
    c ≠ .task t ∧ Sleeps P s c args n := by
  rcases sleeps_setStage h with h | ⟨-, h, -⟩
  · exact h
  · simp at h

end Sleeps

/-! ### `advance` -/

inductive Ticks : Stage Val → Stage Val → Prop
  | opening (n : Nat) : Ticks (.opening (n + 1)) (.opening n)
  | evaluating (kw : Kwargs Val) (n : Nat) : Ticks (.evaluating kw (n + 1)) (.evaluating kw n)
  | closing (r : Except PyExc (Option Val)) (n : Nat) : Ticks (.closing r (n + 1)) (.closing r n)

theorem Ticks.ne_resolving {a b : Stage Val} {n : Nat} (h : Ticks a b) : b ≠ .resolving n := by
  cases h <;> simp

theorem Ticks.ne_created {a b : Stage Val} (h : Ticks a b) : b ≠ .created := by
  cases h <;> simp

theorem Ticks.early_eq {a b : Stage Val} (h : Ticks a b) : a.early = b.early := by
  cases h <;> rfl

theorem Ticks.ne_done {a b : Stage Val} (h : Ticks a b) (e : PyExc) : a ≠ .done (.error e) := by
  cases h <;> simp

/-- The exception that leaves `_execute` when `_context_close` raises `e`. -/
def closeError (e : PyExc) : Except PyExc (Option Val) → PyExc
  | .ok _ => e
  | .error pending => e.during pending

/-- What `advance` does to a task that is not done. -/
inductive Advances (P : Inputs Obj Val) (s : State Obj Val) (t : Nat) (task : Task Obj Val) :
    State Obj Val → Prop
  | start (h : task.stage = .created) :
      Advances P s t task ({ s with totalExecuted := s.totalExecuted + 1 }.setStage t
        (.opening (P.contextOpen t task.obj).suspensions))
  | tick {st : Stage Val} (h : Ticks task.stage st) : Advances P s t task (s.setStage t st)
  | opened (h : task.stage = .opening 0) (ho : (P.contextOpen t task.obj).outcome = .ok ()) :
      Advances P s t task (s.setStage t .entered)
  | openRaised {e : PyExc} (h : task.stage = .opening 0)
      (ho : (P.contextOpen t task.obj).outcome = .error e) :
      Advances P s t task (s.setStage t (.done (.error e)))
  | found {v : Val} (h : task.stage = .entered) (hd : s.data task.obj = some v) :
      Advances P s t task (s.endProcess P t task.obj (.ok (some v)))
  | sleeps {s' : State Obj Val} {n m : Nat} (hp : Polls P s (.task t) (P.readers task.obj) s' n)
      (hw : s'.waitForCache P (P.readers task.obj) n = .sleeps m) :
      Advances P s t task (s'.setStage t (.resolving m))
  | raises {s' : State Obj Val} {n : Nat} {e : PyExc}
      (hp : Polls P s (.task t) (P.readers task.obj) s' n)
      (hw : s'.waitForCache P (P.readers task.obj) n = .raises e) :
      Advances P s t task
        ((s'.handOut.log (.raised (.task t) e)).endProcess P t task.obj (.error e))
  | returns {s' : State Obj Val} {n : Nat} {d : Kwargs Val}
      (hp : Polls P s (.task t) (P.readers task.obj) s' n)
      (hw : s'.waitForCache P (P.readers task.obj) n = .returns d) :
      Advances P s t task
        (((s'.log (.returned (.task t) (P.readers task.obj) d)).log
          (.evaluate t task.obj (task.kwargs.merge d))).setStage t
          (.evaluating (task.kwargs.merge d)
            (P.evaluate t task.obj (task.kwargs.merge d)).suspensions))
  | evaluated {kw : Kwargs Val} {v : Option Val} (h : task.stage = .evaluating kw 0)
      (ho : (P.evaluate t task.obj kw).outcome = .ok v) :
      Advances P s t task
        ({ s with data := Function.update s.data task.obj v }.endProcess P t task.obj (.ok v))
  | evaluateRaised {kw : Kwargs Val} {e : PyExc} (h : task.stage = .evaluating kw 0)
      (ho : (P.evaluate t task.obj kw).outcome = .error e) :
      Advances P s t task (s.endProcess P t task.obj (.error e))
  | closed {r : Except PyExc (Option Val)} (h : task.stage = .closing r 0)
      (ho : (P.contextClose t task.obj).outcome = .ok ()) :
      Advances P s t task (s.setStage t (.done r))
  | closeRaised {r : Except PyExc (Option Val)} {e : PyExc} (h : task.stage = .closing r 0)
      (ho : (P.contextClose t task.obj).outcome = .error e) :
      Advances P s t task (s.setStage t (.done (.error (closeError e r))))

theorem awaitReaders_cases {task : Task Obj Val} {s' : State Obj Val} {n : Nat}
    (hp : Polls P s (.task t) (P.readers task.obj) s' n) :
    Advances P s t task (s'.awaitReaders P t task n) := by
  simp only [awaitReaders]
  cases hw : s'.waitForCache P (P.readers task.obj) n with
  | returns d => exact .returns hp hw
  | raises e => exact .raises hp hw
  | sleeps m => exact .sleeps hp hw

theorem advance_cases {task : Task Obj Val} (ht : s.tasks[t]? = some task) :
    Advances P s t task (s.advance P t) ∨ (∃ r, task.stage = .done r) ∧ s.advance P t = s := by
  obtain ⟨x, kw, st⟩ := task
  cases st with
  | created => left; simp only [advance, ht]; exact .start rfl
  | opening n =>
    left
    cases n with
    | zero =>
      cases ho : (P.contextOpen t x).outcome with
      | ok _ => simp only [advance, ht, ho]; exact .opened rfl ho
      | error e => simp only [advance, ht, ho]; exact .openRaised rfl ho
    | succ n => simp only [advance, ht]; exact .tick (.opening n)
  | entered =>
    left
    cases hd : s.data x with
    | some v => simp only [advance, ht, hd]; exact .found rfl hd
    | none => simp only [advance, ht, hd]; exact awaitReaders_cases (.first ⟨x, ht, hd, rfl⟩)
  | resolving n => left; simp only [advance, ht]; exact awaitReaders_cases (.again ⟨x, kw, ht, rfl⟩)
  | evaluating kw' n =>
    left
    cases n with
    | zero =>
      cases ho : (P.evaluate t x kw').outcome with
      | ok v => simp only [advance, ht, ho]; exact .evaluated rfl ho
      | error e => simp only [advance, ht, ho]; exact .evaluateRaised rfl ho
    | succ n => simp only [advance, ht]; exact .tick (.evaluating kw' n)
  | closing r n =>
    left
    cases n with
    | zero =>
      cases ho : (P.contextClose t x).outcome with
      | ok _ => simp only [advance, ht, ho]; exact .closed rfl ho
      | error e =>
        cases r with
        | ok v => simp only [advance, ht, ho]; exact .closeRaised (r := .ok v) rfl ho
        | error e' => simp only [advance, ht, ho]; exact .closeRaised (r := .error e') rfl ho
    | succ n => simp only [advance, ht]; exact .tick (.closing r n)
  | done r => exact .inr ⟨⟨r, rfl⟩, by simp only [advance, ht]⟩

/-- What holds of the state and of every effect of the task holds after the task went on. -/
theorem advance_rule {Q : State Obj Val → Prop} (hs : Q s)
    (h : ∀ task s', s.tasks[t]? = some task → Advances P s t task s' → Q s') :
    Q (s.advance P t) := by
  cases htask : s.tasks[t]? with
  | none => simpa only [advance, htask] using hs
  | some task =>
    rcases advance_cases (P := P) htask with hadv | ⟨-, heq⟩
    · exact h task _ htask hadv
    · rwa [heq]

/-! ### Steps -/

inductive CallSteps (P : Inputs Obj Val) (s : State Obj Val) (i : Nat) : State Obj Val → Prop
  | idle (h : ∀ call, s.calls[i]? = some call → call.state.ended = true) : CallSteps P s i s
  | sleeps {s' : State Obj Val} {args : List Obj} {n m : Nat} (hp : Polls P s (.call i) args s' n)
      (hw : s'.waitForCache P args n = .sleeps m) : CallSteps P s i (s'.setCall i (.polling m))
  | raises {s' : State Obj Val} {args : List Obj} {n : Nat} {e : PyExc}
      (hp : Polls P s (.call i) args s' n) (hw : s'.waitForCache P args n = .raises e) :
      CallSteps P s i ((s'.handOut.log (.raised (.call i) e)).setCall i (.raised e))
  | returns {s' : State Obj Val} {args : List Obj} {n : Nat} {d : Kwargs Val}
      (hp : Polls P s (.call i) args s' n) (hw : s'.waitForCache P args n = .returns d) :
      CallSteps P s i ((s'.log (.returned (.call i) args d)).setCall i (.returned d))

theorem awaitCall_cases {c : Call Obj Val} {s' : State Obj Val} {n : Nat}
    (hp : Polls P s (.call i) c.args s' n) : CallSteps P s i (s'.awaitCall P i c n) := by
  simp only [awaitCall]
  cases hw : s'.waitForCache P c.args n with
  | returns d => exact .returns hp hw
  | raises e => exact .raises hp hw
  | sleeps m => exact .sleeps hp hw

theorem stepCall_cases : CallSteps P s i (s.stepCall P i) := by
  cases hc : s.calls[i]? with
  | none => simp only [stepCall, hc]; exact .idle (by simp [hc])
  | some c =>
    obtain ⟨args, kw, st⟩ := c
    cases st with
    | idle => simp only [stepCall, hc]; exact awaitCall_cases (.first hc)
    | polling n => simp only [stepCall, hc]; exact awaitCall_cases (.again ⟨kw, hc⟩)
    | returned d => simp only [stepCall, hc]; exact .idle (by simp [hc, CallState.ended])
    | raised e => simp only [stepCall, hc]; exact .idle (by simp [hc, CallState.ended])

theorem stepCall_rule {Q : State Obj Val → Prop} (h : ∀ s', CallSteps P s i s' → Q s') :
    Q (s.stepCall P i) :=
  h _ stepCall_cases

/-- What `advance` preserves holds at the end of a step. -/
theorem settle_induction {I : State Obj Val → Prop}
    (hI : ∀ s, I s → (s.stage? t).any Stage.running → I (s.advance P t)) (n : Nat) (hs : I s) :
    I (settle P t n s) := by
  induction n generalizing s with
  | zero => exact hs
  | succ n ih =>
    unfold settle
    split
    · next hrun => exact ih (hI s hs hrun)
    · exact hs

/-- What calls and `advance` preserve is preserved by every step. -/
theorem step_induction {I : State Obj Val → Prop} (hcall : ∀ i, I (s.stepCall P i))
    (hadvance : ∀ s t, I s → I (s.advance P t)) (hs : I s) : I (s.step P c) := by
  cases c with
  | call i => exact hcall i
  | task t => exact settle_induction (fun s' hs' _ => hadvance s' t hs') 4 (hadvance s t hs)

/-! ### What steps keep -/

/-- `s'` has the tasks of `s`, and schedules and caches at least what `s` does. -/
structure Grows (s s' : State Obj Val) : Prop where
  objects : ∀ t x, s.obj? t = some x → s'.obj? t = some x
  scheduled : ∀ x, s.scheduled.contains x = true → s'.scheduled.contains x = true
  cache : ∀ x, s.cache.contains x = true → s'.cache.contains x = true

section Keep

variable {s' s'' : State Obj Val} {c : Caller} {n : Nat} {r : Except PyExc (Option Val)}

theorem Grows.refl (s : State Obj Val) : Grows s s := ⟨fun _ _ => id, fun _ => id, fun _ => id⟩

theorem Grows.trans (h : Grows s s') (h' : Grows s' s'') : Grows s s'' :=
  ⟨fun t x hx => h'.objects t x (h.objects t x hx), fun x hx => h'.scheduled x (h.scheduled x hx),
    fun x hx => h'.cache x (h.cache x hx)⟩

theorem grows_setStage : Grows s (s.setStage t st) :=
  ⟨fun _ _ h => by simpa using h, fun _ => id, fun _ => id⟩

theorem grows_log {e : Event Obj Val} : Grows s (s.log e) :=
  ⟨fun _ _ => id, fun _ => id, fun _ => id⟩

theorem grows_handOut : Grows s s.handOut := ⟨fun _ _ => id, fun _ => id, fun _ => id⟩

theorem grows_data {d : Obj → Option Val} : Grows s { s with data := d } :=
  ⟨fun _ _ => id, fun _ => id, fun _ => id⟩

theorem grows_totalExecuted {k : Nat} : Grows s { s with totalExecuted := k } :=
  ⟨fun _ _ => id, fun _ => id, fun _ => id⟩

theorem grows_setCall {st : CallState Val} : Grows s (s.setCall i st) :=
  ⟨fun _ _ => id, fun _ => id, fun _ => id⟩

theorem grows_schedule : Grows s (s.schedule by_ args kw) :=
  ⟨fun _ _ => obj?_schedule_of_some, fun _ h => contains_schedule.mpr (.inl h),
    fun _ h => by simpa using h⟩

theorem grows_endProcess : Grows s (s.endProcess P t x r) :=
  ⟨fun _ _ h => by simpa using h, fun _ => id, fun _ h => by simp [h]⟩

theorem grows_polls (h : Polls P s c args s' n) : Grows s s' := by
  cases h with
  | first _ => exact grows_schedule
  | again _ => exact .refl s

theorem grows_advance : Grows s (s.advance P t) := by
  refine advance_rule (.refl s) fun task s₁ _ hadv => ?_
  cases hadv with
  | start _ => exact grows_totalExecuted.trans grows_setStage
  | found _ _ => exact grows_endProcess
  | sleeps hp _ => exact (grows_polls hp).trans grows_setStage
  | raises hp _ => exact (grows_polls hp).trans (grows_handOut.trans (grows_log.trans grows_endProcess))
  | returns hp _ => exact (grows_polls hp).trans ((grows_log.trans grows_log).trans grows_setStage)
  | evaluated _ _ => exact grows_data.trans grows_endProcess
  | evaluateRaised _ _ => exact grows_endProcess
  | _ => exact grows_setStage

theorem grows_stepCall : Grows s (s.stepCall P i) := by
  refine stepCall_rule fun s₁ hstep => ?_
  cases hstep with
  | idle _ => exact .refl s
  | sleeps hp _ => exact (grows_polls hp).trans grows_setCall
  | raises hp _ => exact (grows_polls hp).trans (grows_handOut.trans (grows_log.trans grows_setCall))
  | returns hp _ => exact (grows_polls hp).trans (grows_log.trans grows_setCall)

theorem grows_step : Grows s (s.step P c) := by
  cases c with
  | call i => exact grows_stepCall
  | task t =>
    exact settle_induction (I := Grows s) (fun s' h _ => h.trans grows_advance) 4 grows_advance

variable {task : Task Obj Val}

omit [DecidableEq Obj] in
theorem task_setStage_other (hne : t' ≠ t) (h : s.tasks[t]? = some task) :
    (s.setStage t' st).tasks[t]? = some task := by
  rw [tasks_setStage, List.getElem?_modify, h]
  simp [hne]

theorem task_polls (hp : Polls P s c args s' n) (h : s.tasks[t]? = some task) :
    s'.tasks[t]? = some task := by
  cases hp with
  | first _ => exact task_schedule_of_some h
  | again _ => exact h

theorem task_advance_other (hne : t' ≠ t) (h : s.tasks[t]? = some task) :
    (s.advance P t').tasks[t]? = some task := by
  refine advance_rule (Q := fun s' => s'.tasks[t]? = some task) h fun task' s₁ _ hadv => ?_
  cases hadv with
  | sleeps hp _ =>
    have h' := task_polls hp h
    exact task_setStage_other hne h'
  | raises hp _ =>
    have h' := task_polls hp h
    exact task_setStage_other hne h'
  | returns hp _ =>
    have h' := task_polls hp h
    exact task_setStage_other hne h'
  | _ => exact task_setStage_other hne h

theorem task_step_other (hne : c ≠ .task t) (h : s.tasks[t]? = some task) :
    (s.step P c).tasks[t]? = some task := by
  cases c with
  | call i =>
    refine stepCall_rule (Q := fun s' => s'.tasks[t]? = some task) fun s₁ hstep => ?_
    cases hstep with
    | idle _ => exact h
    | sleeps hp _ => have h' := task_polls hp h; exact h'
    | raises hp _ => have h' := task_polls hp h; exact h'
    | returns hp _ => have h' := task_polls hp h; exact h'
  | task t' =>
    have hne' : t' ≠ t := by rintro rfl; exact hne rfl
    exact settle_induction (I := fun s => s.tasks[t]? = some task)
      (fun s' h' _ => task_advance_other hne' h') 4 (task_advance_other hne' h)

theorem calls_advance : (s.advance P t).calls = s.calls := by
  refine advance_rule (Q := fun s' => s'.calls = s.calls) rfl fun task s₁ _ hadv => ?_
  cases hadv with
  | sleeps hp _ => have h := calls_polls hp; exact h
  | raises hp _ => have h := calls_polls hp; exact h
  | returns hp _ => have h := calls_polls hp; exact h
  | _ => rfl

theorem call_step_other (hne : c ≠ .call i) : (s.step P c).calls[i]? = s.calls[i]? := by
  cases c with
  | call j =>
    have hne' : j ≠ i := by rintro rfl; exact hne rfl
    refine stepCall_rule (Q := fun s' => s'.calls[i]? = s.calls[i]?) fun s₁ hstep => ?_
    cases hstep with
    | idle _ => rfl
    | sleeps hp _ => simp [hne', calls_polls hp]
    | raises hp _ => simp [hne', calls_polls hp]
    | returns hp _ => simp [hne', calls_polls hp]
  | task t =>
    have hcalls : (s.step P (.task t)).calls = s.calls :=
      settle_induction (I := fun s' => s'.calls = s.calls)
        (fun s' h _ => calls_advance.trans h) 4 calls_advance
    rw [hcalls]

/-- A call that has ended stays as it is. -/
theorem call_step_ended {call : Call Obj Val} (h : s.calls[i]? = some call)
    (hended : call.state.ended = true) : (s.step P c).calls[i]? = some call := by
  by_cases hc : c = .call i
  · subst hc
    obtain ⟨args, kw, st⟩ := call
    cases st with
    | returned d => simp [step, stepCall, h]
    | raised e => simp [step, stepCall, h]
    | idle => cases hended
    | polling m => cases hended
  · exact (call_step_other hc).trans h

end Keep

end State

end NexusSdk.Cache
