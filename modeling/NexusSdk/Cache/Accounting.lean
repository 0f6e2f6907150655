import NexusSdk.Cache.Steps

/-! What the cache's books say in every reachable state: which tasks `_scheduled` records, which
tasks `_total_executed` counts, and which inputs `_cache` holds. -/

namespace NexusSdk.Cache

open Lib

variable {Obj Val : Type}

def requests (history : List (Event Obj Val)) : List Obj :=
  history.flatMap fun
    | .resolve _ args => args
    | _ => []

def Task.started (task : Task Obj Val) : Bool :=
  match task.stage with
  | .created => false
  | _ => true

@[simp] theorem requests_append (h h' : List (Event Obj Val)) :
    requests (h ++ h') = requests h ++ requests h' :=
  List.flatMap_append

theorem countP_modify {α : Type} (p : α → Bool) (f : α → α) {l : List α} {i : Nat} {a : α}
    (h : l[i]? = some a) :
    (l.modify i f).countP p + (if p a then 1 else 0) = l.countP p + (if p (f a) then 1 else 0) := by
  induction l generalizing i with
  | nil => simp at h
  | cons b l ih =>
    cases i with
    | zero =>
      obtain rfl : b = a := by simpa using h
      simp only [List.modify_zero_cons, List.countP_cons]
      omega
    | succ i =>
      have := ih (by simpa using h)
      simp only [List.modify_succ_cons, List.countP_cons]
      omega

theorem started_of_polls {task : Task Obj Val} {n : Nat}
    (h : task.stage = .entered ∨ task.stage = .resolving n) : task.started = true := by
  rcases h with h | h <;> simp [Task.started, h]

theorem State.Ticks.started {task : Task Obj Val} {st : Stage Val} (h : Ticks task.stage st) :
    task.started = true := by
  obtain ⟨x, kw, old⟩ := task
  cases h <;> rfl

variable [DecidableEq Obj]

structure Accounted (P : Inputs Obj Val) (s : State Obj Val) : Prop where
  total : s.totalExecuted = s.tasks.countP Task.started
  requested : ∀ x, s.scheduled.contains x = true ↔ x ∈ requests s.history
  recorded : ∀ x t, s.scheduled.get? x = some t → s.obj? t = some x
  owned : ∀ x t, s.obj? t = some x → s.scheduled.contains x = true
  cached : ∀ x, s.cache.contains x = true →
    ∃ t st, s.obj? t = some x ∧ s.stage? t = some st ∧ st.early = false
  counted : ∀ c args, s.Sleeps P c args args.length → ∀ x ∈ args, s.cache.contains x = true
  returned : ∀ c args d, .returned c args d ∈ s.history → ∀ x ∈ args, s.cache.contains x = true

namespace Accounted

variable {P : Inputs Obj Val} {s s' : State Obj Val} {t i n : Nat} {x : Obj} {args : List Obj}
  {c : Caller} {task : Task Obj Val}

theorem data {d : Obj → Option Val} (h : Accounted P s) : Accounted P { s with data := d } :=
  ⟨h.1, h.2, h.3, h.4, h.5, h.6, h.7⟩

theorem handOut (h : Accounted P s) : Accounted P s.handOut :=
  ⟨h.1, h.2, h.3, h.4, h.5, h.6, h.7⟩

theorem log {e : Event Obj Val} (h : Accounted P s) (hreq : requests [e] = [])
    (hret : ∀ c args d, e = .returned c args d → ∀ x ∈ args, s.cache.contains x = true) :
    Accounted P (s.log e) where
  total := h.total
  requested x := by simpa [hreq] using h.requested x
  recorded := h.recorded
  owned := h.owned
  cached := h.cached
  counted := h.counted
  returned c args d hmem := by
    rcases List.mem_append.mp hmem with hmem | hmem
    · exact h.returned c args d hmem
    · exact hret c args d (List.mem_singleton.mp hmem).symm

theorem setStage {st : Stage Val} (h : Accounted P s) (htask : s.tasks[t]? = some task)
    (hstarted : task.started = true) (hcreated : st ≠ .created)
    (hearly : st.early = true → task.stage.early = true)
    (hst : st = .resolving (P.readers task.obj).length →
      ∀ y ∈ P.readers task.obj, s.cache.contains y = true) : Accounted P (s.setStage t st) where
  total := by
    have hcount := countP_modify Task.started (fun task => { task with stage := st }) htask
    have hst' : Task.started { task with stage := st } = true := by
      cases st <;> simp_all [Task.started]
    simp only [hstarted, hst', if_true] at hcount
    rw [State.totalExecuted_setStage, State.tasks_setStage, h.total]
    omega
  requested := h.requested
  recorded x t' hx := by simpa using h.recorded x t' hx
  owned x t' hx := h.owned x t' (by simpa using hx)
  cached x hx := by
    obtain ⟨t', old, hobj, hold, hlate⟩ := h.cached x hx
    by_cases heq : t' = t
    · subst heq
      refine ⟨t', st, by simpa using hobj, by simp [hold], ?_⟩
      rw [State.stage?_of_task htask] at hold
      obtain rfl := Option.some.inj hold
      cases hst' : st.early with
      | false => rfl
      | true => exact absurd (hearly hst') (by simp [hlate])
    · exact ⟨t', old, by simpa using hobj, by simpa [heq] using hold, hlate⟩
  counted c args hc := by
    rcases State.sleeps_setStage hc with ⟨-, hc⟩ | ⟨-, hres, x, hx, rfl⟩
    · exact h.counted c args hc
    · obtain rfl : task.obj = x := by simpa [State.obj?_of_task htask] using hx
      exact hst hres
  returned := h.returned

theorem start {m : Nat} (h : Accounted P s) (htask : s.tasks[t]? = some task)
    (hcreated : task.stage = .created) :
    Accounted P ({ s with totalExecuted := s.totalExecuted + 1 }.setStage t (.opening m)) where
  total := by
    have hcount := countP_modify Task.started (fun task => { task with stage := .opening m }) htask
    have hnew : Task.started { task with stage := .opening m } = true := rfl
    have hold : task.started = false := by simp [Task.started, hcreated]
    simp only [hnew, hold, if_true, Bool.false_eq_true, if_false] at hcount
    show s.totalExecuted + 1 = _
    rw [h.total]
    exact hcount.symm
  requested := h.requested
  recorded x t' hx := by simpa using h.recorded x t' hx
  owned x t' hx := h.owned x t' (by simpa using hx)
  cached x hx := by
    obtain ⟨t', old, hobj, hold, hlate⟩ := h.cached x hx
    have hne : t' ≠ t := by
      rintro rfl
      rw [State.stage?_of_task htask] at hold
      rw [← Option.some.inj hold, hcreated] at hlate
      cases hlate
    exact ⟨t', old, by simpa using hobj, by simpa [hne] using hold, hlate⟩
  counted c args hc := by
    rcases State.sleeps_setStage hc with ⟨-, hc⟩ | ⟨-, hres, -⟩
    · exact h.counted c args hc
    · simp at hres
  returned := h.returned

theorem setCall {st : CallState Val} (h : Accounted P s)
    (hst : ∀ call, s.calls[i]? = some call → st = .polling call.args.length →
      ∀ y ∈ call.args, s.cache.contains y = true) : Accounted P (s.setCall i st) where
  total := h.total
  requested := h.requested
  recorded := h.recorded
  owned := h.owned
  cached := h.cached
  counted c args hc := by
    rcases State.sleeps_setCall hc with ⟨-, hc⟩ | ⟨-, hpoll, call, hcall, rfl⟩
    · exact h.counted c args hc
    · exact hst call hcall hpoll
  returned := h.returned

theorem schedule {kw : Kwargs Val} (h : Accounted P s) : Accounted P (s.schedule c args kw) where
  total := by
    have hnew : ((s.toSchedule args).map fun x => (⟨x, kw, .created⟩ : Task Obj Val)).countP
        Task.started = 0 := List.countP_eq_zero.mpr (by simp [Task.started])
    rw [State.totalExecuted_schedule, State.tasks_schedule, List.countP_append, hnew, h.total,
      Nat.add_zero]
  requested x := by
    rw [State.contains_schedule, h.requested, State.history_schedule]
    simp [requests]
  recorded x t hx := by
    rcases State.get?_schedule hx with hx | ⟨k, rfl, hk⟩
    · exact State.obj?_schedule_of_some (h.recorded x t hx)
    · exact State.obj?_of_task (State.task_schedule_new hk)
  owned x t hx := by
    rw [State.contains_schedule]
    obtain ⟨task, htask, rfl⟩ := State.exists_task_of_obj? hx
    rcases State.task_schedule htask with htask | ⟨k, y, -, hk, rfl⟩
    · exact .inl (h.owned _ t (State.obj?_of_task htask))
    · exact .inr (State.mem_toSchedule.mp (List.mem_of_getElem? hk)).1
  cached x hx := by
    obtain ⟨t, st, hobj, hst, hlate⟩ := h.cached x (by simpa using hx)
    exact ⟨t, st, State.obj?_schedule_of_some hobj, State.stage?_schedule_of_some hst, hlate⟩
  counted c args hc x hx := by
    rw [State.cache_schedule]
    exact h.counted c args (State.sleeps_schedule hc) x hx
  returned c args d hmem x hx := by
    rw [State.cache_schedule]
    exact h.returned c args d (by simpa using hmem) x hx

theorem endProcess {r : Except PyExc (Option Val)} (h : Accounted P s)
    (htask : s.tasks[t]? = some task) (hstarted : task.started = true) :
    Accounted P (s.endProcess P t task.obj r) := by
  have hset : Accounted P (s.setStage t (.closing r (P.contextClose t task.obj).suspensions)) :=
    h.setStage htask hstarted (by simp) (by simp [Stage.early]) (by simp)
  refine ⟨hset.total, fun x => ?_, hset.recorded, hset.owned, fun x hx => ?_, ?_, ?_⟩
  · simpa [requests] using h.requested x
  · rw [State.cache_endProcess, Dict.contains_set, Bool.or_eq_true, decide_eq_true_iff] at hx
    rcases hx with rfl | hx
    · refine ⟨t, .closing r (P.contextClose t task.obj).suspensions, ?_, ?_, rfl⟩
      · simpa using State.obj?_of_task htask
      · simp [State.stage?_of_task htask]
    · exact hset.cached x hx
  · intro c args hc x hx
    have := h.counted c args (State.sleeps_endProcess hc).2 x hx
    simp [this]
  · intro c args d hmem x hx
    have := h.returned c args d (by simpa using hmem) x hx
    simp [this]

theorem polls (h : Accounted P s) (hp : State.Polls P s c args s' n) :
    Accounted P s' ∧ (n = args.length → ∀ x ∈ args, s'.cache.contains x = true) := by
  cases hp with
  | first _ =>
    refine ⟨h.schedule, fun hn x hx => ?_⟩
    rw [List.eq_nil_of_length_eq_zero hn.symm] at hx
    simp at hx
  | again hs => exact ⟨h, fun hn => h.counted c args (hn ▸ hs)⟩

theorem stepCall (h : Accounted P s) : Accounted P (s.stepCall P i) := by
  refine State.stepCall_rule fun s₁ hstep => ?_
  cases hstep with
  | idle _ => exact h
  | sleeps hp hw =>
    obtain ⟨-, -, rfl⟩ := State.waitForCache_sleeps hw
    refine (h.polls hp).1.setCall fun call hcall hpoll => ?_
    rw [State.args_of_polls_call hp hcall] at hpoll ⊢
    exact State.numCached_eq_length.mp (CallState.polling.inj hpoll)
  | raises hp hw =>
    exact ((h.polls hp).1.handOut.log rfl (by simp)).setCall (by simp)
  | @returns s' args n d hp hw =>
    obtain ⟨hn, -⟩ := State.waitForCache_returns hw
    obtain ⟨h', hall⟩ := h.polls hp
    have hlog : Accounted P (s'.log (.returned (.call i) args d)) :=
      h'.log rfl fun c args' d' heq => by
        obtain ⟨-, rfl, -⟩ := Event.returned.inj heq
        exact hall hn
    exact hlog.setCall (by simp)

theorem advance (h : Accounted P s) : Accounted P (s.advance P t) := by
  refine State.advance_rule h fun task s₁ htask hadv => ?_
  cases hadv with
  | start hc => exact h.start htask hc
  | tick htick =>
    exact h.setStage htask (htick.started) htick.ne_created (htick.early_eq ▸ id)
      fun hres => absurd hres htick.ne_resolving
  | opened hc _ =>
    exact h.setStage htask (by simp [Task.started, hc]) (by simp) (by simp [hc, Stage.early])
      (by simp)
  | openRaised hc _ =>
    exact h.setStage htask (by simp [Task.started, hc]) (by simp) (by simp [Stage.early]) (by simp)
  | found hc _ => exact h.endProcess htask (by simp [Task.started, hc])
  | sleeps hp hw =>
    obtain ⟨-, -, rfl⟩ := State.waitForCache_sleeps hw
    obtain ⟨htask', hstage⟩ := State.task_of_polls htask hp
    refine (h.polls hp).1.setStage htask' (started_of_polls hstage) (by simp) ?_ fun hres => ?_
    · rcases hstage with hstage | hstage <;> simp [hstage, Stage.early]
    · exact State.numCached_eq_length.mp (Stage.resolving.inj hres)
  | raises hp hw =>
    obtain ⟨htask', hstage⟩ := State.task_of_polls htask hp
    exact ((h.polls hp).1.handOut.log rfl (by simp)).endProcess htask' (started_of_polls hstage)
  | @returns s' n d hp hw =>
    obtain ⟨hn, -⟩ := State.waitForCache_returns hw
    obtain ⟨htask', hstage⟩ := State.task_of_polls htask hp
    obtain ⟨h', hall⟩ := h.polls hp
    have hlog : Accounted P (s'.log (.returned (.task t) (P.readers task.obj) d)) :=
      h'.log rfl fun c args' d' heq => by
        obtain ⟨-, rfl, -⟩ := Event.returned.inj heq
        exact hall hn
    refine (hlog.log rfl (by simp)).setStage htask' (started_of_polls hstage) (by simp) ?_ (by simp)
    simp [Stage.early]
  | evaluated hc _ => exact h.data.endProcess htask (by simp [Task.started, hc])
  | evaluateRaised hc _ => exact h.endProcess htask (by simp [Task.started, hc])
  | closed hc _ =>
    exact h.setStage htask (by simp [Task.started, hc]) (by simp) (by simp [Stage.early]) (by simp)
  | closeRaised hc _ =>
    exact h.setStage htask (by simp [Task.started, hc]) (by simp) (by simp [Stage.early]) (by simp)

theorem step (h : Accounted P s) : Accounted P (s.step P c) :=
  State.step_induction (fun _ => h.stepCall) (fun _ _ hs => hs.advance) h

theorem initial (P : Inputs Obj Val) (calls : List (List Obj × Kwargs Val)) :
    Accounted P (Cache.initial calls) where
  total := rfl
  requested x := by simp [Cache.initial, requests]
  recorded x t hx := by simp [Cache.initial] at hx
  owned x t hx := by simp [Cache.initial, State.obj?] at hx
  cached x hx := by simp [Cache.initial] at hx
  counted _ _ hc := absurd hc State.not_sleeps_initial
  returned c args d hmem := by simp [Cache.initial] at hmem

end Accounted

theorem accounted_exec (P : Inputs Obj Val) (calls : List (List Obj × Kwargs Val))
    (σ : List Caller) : Accounted P (exec P calls σ) :=
  run_invariant (fun _ _ h => h.step) (Accounted.initial P calls) σ

end NexusSdk.Cache
