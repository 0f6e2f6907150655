import NexusSdk.Cache.Accounting

/-! When each input is evaluated at most once.  `resolve` tests which of its arguments are scheduled
before it creates the first task, so a call that lists an unscheduled object twice creates two tasks
for it.  Without such calls each object has one task. -/

namespace NexusSdk.Cache

open Lib

variable {Obj Val : Type}

def evaluations (history : List (Event Obj Val)) : List Obj :=
  history.flatMap fun
    | .evaluate _ x _ => [x]
    | _ => []

def AllReturned (history : List (Event Obj Val)) : Prop :=
  ∀ c args, .resolve c args ∈ history → ∃ d, .returned c args d ∈ history

@[simp] theorem evaluations_append (h h' : List (Event Obj Val)) :
    evaluations (h ++ h') = evaluations h ++ evaluations h' :=
  List.flatMap_append

/-- Whether a task of `x` in the given stage comes to the `resolve` call of `x` in its next step:
no suspension is left before it, and the object has no data yet. -/
def reachesResolve (P : Inputs Obj Val) (s : State Obj Val) (t : Nat) (x : Obj) :
    Stage Val → Bool
  | .created =>
    (P.contextOpen t x).suspensions == 0 && (P.contextOpen t x).outcome.isOk && (s.data x).isNone
  | .opening n => n ≤ 1 && (P.contextOpen t x).outcome.isOk && (s.data x).isNone
  | .entered => (s.data x).isNone
  | _ => false

/-- The arguments of the `resolve` call that caller `c` makes in its next step, if it makes one. -/
def State.requested (P : Inputs Obj Val) (s : State Obj Val) : Caller → List Obj
  | .call i =>
    match s.calls[i]? with
    | some ⟨args, _, .idle⟩ => args
    | _ => []
  | .task t =>
    match s.tasks[t]? with
    | some task => if reachesResolve P s t task.obj task.stage then P.readers task.obj else []
    | none => []

variable [DecidableEq Obj]

/-- Each task is the one recorded for its object, and the evaluations so far are those of distinct
tasks that have come that far. -/
structure OneTask (s : State Obj Val) : Prop where
  unique : ∀ x t, s.obj? t = some x → s.scheduled.get? x = some t
  once : (evaluations s.history).Nodup
  evaluated : ∀ x ∈ evaluations s.history,
    ∃ t st, s.obj? t = some x ∧ s.stage? t = some st ∧ st.early = false

namespace OneTask

variable {P : Inputs Obj Val} {s s' : State Obj Val} {t i n : Nat} {x : Obj} {args : List Obj}
  {c : Caller} {task : Task Obj Val}

theorem data {d : Obj → Option Val} (h : OneTask s) : OneTask { s with data := d } :=
  ⟨h.1, h.2, h.3⟩

theorem totalExecuted {k : Nat} (h : OneTask s) : OneTask { s with totalExecuted := k } :=
  ⟨h.1, h.2, h.3⟩

theorem setCall {st : CallState Val} (h : OneTask s) : OneTask (s.setCall i st) := ⟨h.1, h.2, h.3⟩

theorem handOut (h : OneTask s) : OneTask s.handOut := ⟨h.1, h.2, h.3⟩

theorem log {e : Event Obj Val} (h : OneTask s) (he : evaluations [e] = []) :
    OneTask (s.log e) := by
  refine ⟨h.unique, ?_, ?_⟩ <;> rw [State.history_log, evaluations_append, he, List.append_nil]
  · exact h.once
  · exact h.evaluated

theorem setStage {st : Stage Val} (h : OneTask s) (htask : s.tasks[t]? = some task)
    (hearly : st.early = true → task.stage.early = true) : OneTask (s.setStage t st) where
  unique x t' hx := h.unique x t' (by simpa using hx)
  once := h.once
  evaluated x hx := by
    obtain ⟨t', old, hobj, hold, hlate⟩ := h.evaluated x hx
    by_cases heq : t' = t
    · subst heq
      refine ⟨t', st, by simpa using hobj, by simp [hold], ?_⟩
      rw [State.stage?_of_task htask] at hold
      obtain rfl := Option.some.inj hold
      cases hst : st.early with
      | false => rfl
      | true => exact absurd (hearly hst) (by simp [hlate])
    · exact ⟨t', old, by simpa using hobj, by simpa [heq] using hold, hlate⟩

theorem evaluate {kw : Kwargs Val} {m : Nat} (h : OneTask s) (htask : s.tasks[t]? = some task)
    (hearly : task.stage.early = true) :
    OneTask ((s.log (.evaluate t task.obj kw)).setStage t (.evaluating kw m)) := by
  have hset : OneTask (s.setStage t (.evaluating kw m)) :=
    h.setStage htask (by simp [Stage.early])
  have hfirst : task.obj ∉ evaluations s.history := by
    intro hmem
    obtain ⟨t', st, hobj, hst, hlate⟩ := h.evaluated _ hmem
    have hsame := (h.unique _ t' hobj).symm.trans (h.unique _ t (State.obj?_of_task htask))
    obtain rfl := Option.some.inj hsame
    rw [State.stage?_of_task htask] at hst
    obtain rfl := Option.some.inj hst
    simp [hearly] at hlate
  refine ⟨hset.unique, ?_, fun x hx => ?_⟩
  · rw [State.history_setStage, State.history_log, evaluations_append]
    exact List.nodup_append.mpr ⟨h.once, by simp [evaluations], by
      rintro a ha b hb rfl
      obtain rfl : a = task.obj := by simpa [evaluations] using hb
      exact hfirst ha⟩
  · rw [State.history_setStage, State.history_log, evaluations_append, List.mem_append] at hx
    rcases hx with hx | hx
    · exact hset.evaluated x hx
    · obtain rfl : x = task.obj := by simpa [evaluations] using hx
      refine ⟨t, .evaluating kw m, ?_, ?_, rfl⟩
      · simpa using State.obj?_of_task htask
      · simp [State.stage?_of_task htask]

theorem schedule {kw : Kwargs Val} (h : OneTask s) (hnodup : (s.toSchedule args).Nodup) :
    OneTask (s.schedule c args kw) where
  unique x t hx := by
    obtain ⟨task, htask, rfl⟩ := State.exists_task_of_obj? hx
    rcases State.task_schedule htask with htask | ⟨k, y, rfl, hk, rfl⟩
    · exact State.get?_schedule_of_some (h.unique _ t (State.obj?_of_task htask))
    · obtain ⟨k', hk', hget⟩ := State.get?_createTasks_of_mem kw (s.log (.resolve c args))
        (List.mem_of_getElem? hk)
      obtain rfl : k' = k := by
        have hlt := (List.getElem?_eq_some_iff.mp hk').1
        exact (List.getElem?_inj hlt hnodup).mp (hk'.trans hk.symm)
      exact hget
  once := by
    rw [State.history_schedule, evaluations_append]
    simpa [evaluations] using h.once
  evaluated x hx := by
    rw [State.history_schedule, evaluations_append] at hx
    obtain ⟨t, st, hobj, hst, hlate⟩ := h.evaluated x (by simpa [evaluations] using hx)
    exact ⟨t, st, State.obj?_schedule_of_some hobj, State.stage?_schedule_of_some hst, hlate⟩

theorem endProcess {r : Except PyExc (Option Val)} (h : OneTask s)
    (htask : s.tasks[t]? = some task) : OneTask (s.endProcess P t x r) := by
  have hset : OneTask (s.setStage t (.closing r (P.contextClose t x).suspensions)) :=
    h.setStage htask (by simp [Stage.early])
  refine ⟨hset.unique, ?_, ?_⟩ <;> rw [State.history_endProcess, evaluations_append]
  · simpa [evaluations] using h.once
  · simpa [evaluations] using hset.evaluated

theorem polls (hp : State.Polls P s c args s' n) (h : OneTask s)
    (hnodup : (s.toSchedule (s.requested P c)).Nodup) : OneTask s' := by
  cases hp with
  | again _ => exact h
  | first harr =>
    refine h.schedule ?_
    cases c with
    | call i =>
      rw [State.Arrives] at harr
      simpa [State.requested, harr] using hnodup
    | task t =>
      obtain ⟨x, ht, hd, rfl⟩ := harr
      simpa [State.requested, ht, reachesResolve, hd] using hnodup

theorem stepCall (h : OneTask s) (hnodup : (s.toSchedule (s.requested P (.call i))).Nodup) :
    OneTask (s.stepCall P i) := by
  refine State.stepCall_rule fun s₁ hstep => ?_
  cases hstep with
  | idle _ => exact h
  | sleeps hp _ => exact (polls hp h hnodup).setCall
  | raises hp _ => exact ((polls hp h hnodup).handOut.log rfl).setCall
  | returns hp _ => exact ((polls hp h hnodup).log rfl).setCall

theorem opening_running {m : Nat} (h : (Stage.opening m : Stage Val).running = true) : m = 0 := by
  cases m with
  | zero => rfl
  | succ m => cases h

/-- What `advance` preserves: if the task goes on at once to its `resolve` call, that call creates
one task for each object. -/
def Advanceable (P : Inputs Obj Val) (t : Nat) (s : State Obj Val) : Prop :=
  OneTask s ∧
    ((s.stage? t).any Stage.running → (s.toSchedule (s.requested P (.task t))).Nodup)

/-- A task that goes on to a stage from which it makes no request, or suspends. -/
theorem Advanceable.setStage {st : Stage Val} (h : OneTask (s.setStage t st))
    (htask : s.tasks[t]? = some task)
    (hst : st.running = true → reachesResolve P s t task.obj st = true →
      (s.toSchedule (P.readers task.obj)).Nodup) : Advanceable P t (s.setStage t st) := by
  refine ⟨h, fun hrun => ?_⟩
  have hrun' : st.running = true := by simpa [State.stage?_of_task htask] using hrun
  have hreq : (s.setStage t st).requested P (.task t) =
      if reachesResolve P s t task.obj st then P.readers task.obj else [] := by
    simp only [State.requested, State.tasks_setStage, List.getElem?_modify, htask]
    rfl
  rw [hreq]
  show (s.toSchedule _).Nodup
  split
  · next hreach => exact hst hrun' hreach
  · simp [State.toSchedule]

theorem Advanceable.late {st : Stage Val} (h : OneTask (s.setStage t st))
    (htask : s.tasks[t]? = some task) (hst : reachesResolve P s t task.obj st = false) :
    Advanceable P t (s.setStage t st) :=
  .setStage h htask fun _ hreach => by simp [hst] at hreach

theorem advance (h : OneTask s) (hnodup : (s.toSchedule (s.requested P (.task t))).Nodup) :
    Advanceable P t (s.advance P t) := by
  refine State.advance_rule ⟨h, fun _ => hnodup⟩ fun task s₁ htask hadv => ?_
  have hreaders (hreach : reachesResolve P s t task.obj task.stage = true) :
      (s.toSchedule (P.readers task.obj)).Nodup := by
    simpa [State.requested, htask, hreach] using hnodup
  cases hadv with
  | start hc =>
    refine .setStage (h.totalExecuted.setStage htask (by simp [hc, Stage.early])) htask ?_
    intro hrun hreach
    have hzero := opening_running hrun
    refine hreaders ?_
    simpa [reachesResolve, hc, hzero] using hreach
  | @tick st htick =>
    refine .setStage (h.setStage htask (htick.early_eq ▸ id)) htask fun hrun hreach => ?_
    refine hreaders ?_
    generalize task.stage = old at htick
    cases htick with
    | opening n =>
      obtain rfl := opening_running hrun
      simpa [reachesResolve] using hreach
    | evaluating kw n => cases hreach
    | closing r n => cases hreach
  | opened hc ho =>
    refine .setStage (h.setStage htask (by simp [hc, Stage.early])) htask fun _ hreach => ?_
    refine hreaders ?_
    simpa [hc, ho, reachesResolve, Except.isOk, Except.toBool] using hreach
  | openRaised hc _ => exact .late (h.setStage htask (by simp [Stage.early])) htask rfl
  | found hc _ => exact .late (h.endProcess htask) htask rfl
  | sleeps hp _ =>
    obtain ⟨htask', hstage⟩ := State.task_of_polls htask hp
    refine .late ((polls hp h hnodup).setStage htask' fun _ => early_of_polls hstage) htask' rfl
  | raises hp _ =>
    obtain ⟨htask', -⟩ := State.task_of_polls htask hp
    exact .late (((polls hp h hnodup).handOut.log rfl).endProcess htask') htask' rfl
  | returns hp _ =>
    obtain ⟨htask', hstage⟩ := State.task_of_polls htask hp
    refine .setStage ?_ htask' ?_
    · exact ((polls hp h hnodup).log rfl).evaluate htask' (early_of_polls hstage)
    · intro _ hreach
      simp [reachesResolve] at hreach
  | evaluated hc _ => exact .late (h.data.endProcess htask) htask rfl
  | evaluateRaised hc _ => exact .late (h.endProcess htask) htask rfl
  | closed hc _ => exact .late (h.setStage htask (by simp [Stage.early])) htask rfl
  | closeRaised hc _ => exact .late (h.setStage htask (by simp [Stage.early])) htask rfl

theorem step (h : OneTask s) (hnodup : (s.toSchedule (s.requested P c)).Nodup) :
    OneTask (s.step P c) := by
  cases c with
  | call i => exact h.stepCall hnodup
  | task t =>
    have hsettle (s : State Obj Val) (hs : Advanceable P t s) (hrun : (s.stage? t).any Stage.running) :
        Advanceable P t (s.advance P t) := hs.1.advance (hs.2 hrun)
    exact (State.settle_induction hsettle 4 (h.advance hnodup)).1

theorem initial (calls : List (List Obj × Kwargs Val)) : OneTask (Cache.initial calls) where
  unique x t hx := by simp [Cache.initial, State.obj?] at hx
  once := List.nodup_nil
  evaluated x hx := by simp [Cache.initial, evaluations] at hx

end OneTask

section Total

variable {P : Inputs Obj Val} {s : State Obj Val}

theorem OneTask.nodup_objects (h : OneTask s) : (s.tasks.map Task.obj).Nodup := by
  rw [List.nodup_iff_getElem?_ne_getElem?]
  intro i j hij hj heq
  rw [List.getElem?_map, List.getElem?_map] at heq
  obtain ⟨task, htask, -⟩ : ∃ task, s.tasks[j]? = some task ∧ True :=
    ⟨_, List.getElem?_eq_getElem (by simpa using hj), trivial⟩
  have hobj : s.obj? j = some task.obj := State.obj?_of_task htask
  have hget := h.unique _ i (heq.trans hobj)
  rw [h.unique _ j hobj] at hget
  exact absurd (Option.some.inj hget) (by omega)

theorem Accounted.mem_objects (h : Accounted P s) (x : Obj) :
    x ∈ s.tasks.map Task.obj ↔ x ∈ requests s.history := by
  rw [← h.requested]
  constructor
  · intro hx
    obtain ⟨t, ht⟩ := List.mem_iff_getElem?.mp hx
    exact h.owned x t (by simpa [State.obj?] using ht)
  · intro hx
    obtain ⟨t, ht⟩ := Dict.contains_iff.mp hx
    obtain ⟨task, htask, rfl⟩ := State.exists_task_of_obj? (h.recorded x t ht)
    exact List.mem_map_of_mem (List.mem_of_getElem? htask)

theorem OneTask.started (h : OneTask s) (hacc : Accounted P s) (hret : AllReturned s.history) :
    ∀ task ∈ s.tasks, task.started = true := by
  intro task hmem
  obtain ⟨t, htask⟩ := List.mem_iff_getElem?.mp hmem
  have hobj := State.obj?_of_task htask
  have hreq : task.obj ∈ requests s.history := (hacc.requested _).mp (hacc.owned _ t hobj)
  obtain ⟨e, he, hx⟩ := List.mem_flatMap.mp hreq
  cases e with
  | resolve c args =>
    obtain ⟨d, hd⟩ := hret c args he
    obtain ⟨t', st, hobj', hst, hlate⟩ := hacc.cached _ (hacc.returned c args d hd _ hx)
    have hsame := (h.unique _ t' hobj').symm.trans (h.unique _ t hobj)
    obtain rfl := Option.some.inj hsame
    rw [State.stage?_of_task htask] at hst
    obtain rfl := Option.some.inj hst
    unfold Task.started
    split
    · next hcreated => simp [hcreated, Stage.early] at hlate
    · rfl
  | _ => simp at hx

end Total

/-- If no `resolve` call of a run lists an unscheduled object twice, each object is evaluated at
most once, and when all calls have returned, the total is the number of objects requested. -/
theorem evaluates_each_input_once (P : Inputs Obj Val) (calls : List (List Obj × Kwargs Val))
    (σ : List Caller)
    (h : Along (State.step P) (fun s c => (s.toSchedule (s.requested P c)).Nodup)
      (initial calls) σ) :
    (evaluations (exec P calls σ).history).Nodup ∧
      (AllReturned (exec P calls σ).history →
        (exec P calls σ).totalExecuted = (requests (exec P calls σ).history).dedup.length) := by
  have hone : OneTask (exec P calls σ) :=
    run_induction (fun s a hs hn => hs.step hn) (OneTask.initial calls) h
  have hacc := accounted_exec P calls σ
  refine ⟨hone.once, fun hret => ?_⟩
  have hperm : ((exec P calls σ).tasks.map Task.obj).Perm
      (requests (exec P calls σ).history).dedup :=
    (List.perm_ext_iff_of_nodup hone.nodup_objects (List.nodup_dedup _)).mpr fun x =>
      (hacc.mem_objects x).trans List.mem_dedup.symm
  calc (exec P calls σ).totalExecuted = (exec P calls σ).tasks.length := by
        rw [hacc.total, List.countP_eq_length.mpr (hone.started hacc hret)]
    _ = (requests (exec P calls σ).history).dedup.length := by
        rw [← hperm.length_eq, List.length_map]

def readerChain : Inputs Bool String where
  cacheKey x := toString x
  classAlias x := toString x
  readers x := if x then [false] else []
  contextOpen _ _ := ⟨0, .ok ()⟩
  evaluate _ x _ := ⟨1, .ok (some (toString x))⟩
  contextClose _ _ := ⟨0, .ok ()⟩
  errorMap := shippedErrorMap

/-- A schedule under which a call for both readers returns. -/
def chainResolved : List Caller :=
  [.call 0, .task 0, .task 1, .task 1, .task 0, .task 0, .task 0, .call 0, .call 0]

theorem nodup_requested_readerChain :
    Along (State.step readerChain) (fun s c => (s.toSchedule (s.requested readerChain c)).Nodup)
      (initial [([true, false], .empty)]) chainResolved :=
  ⟨by decide, by decide, by decide, by decide, by decide, by decide, by decide, by decide,
    by decide, trivial⟩

theorem evaluates_each_input_once_readerChain :
    let s := exec readerChain [([true, false], .empty)] chainResolved
    (evaluations s.history).Nodup ∧ AllReturned s.history ∧
      s.totalExecuted = (requests s.history).dedup.length := by
  intro s
  have hhistory : s.history =
      [.resolve (.call 0) [true, false], .resolve (.task 0) [false], .resolve (.task 1) [],
        .returned (.task 1) [] .empty, .evaluate 1 false .empty,
        .processed 1 false (.ok (some "false")),
        .returned (.task 0) [false] (.ofList [("false", some "false")]),
        .evaluate 0 true (.ofList [("false", some "false")]),
        .processed 0 true (.ok (some "true")),
        .returned (.call 0) [true, false]
          (.ofList [("true", some "true"), ("false", some "false")])] := rfl
  have hret : AllReturned s.history := by
    rw [hhistory]
    intro c args hmem
    simp only [List.mem_cons, Event.resolve.injEq, reduceCtorEq, List.not_mem_nil,
      or_false] at hmem
    rcases hmem with ⟨rfl, rfl⟩ | ⟨rfl, rfl⟩ | ⟨rfl, rfl⟩
    · exact ⟨.ofList [("true", some "true"), ("false", some "false")], by simp⟩
    · exact ⟨.ofList [("false", some "false")], by simp⟩
    · exact ⟨.empty, by simp⟩
  obtain ⟨honce, htotal⟩ := evaluates_each_input_once readerChain [([true, false], .empty)]
    chainResolved nodup_requested_readerChain
  exact ⟨honce, hret, htotal hret⟩

/-- A call that lists one reader twice: two tasks evaluate it, and two are counted. -/
theorem evaluates_repeated_input_twice :
    let s := exec readerChain [([false, false], .empty)]
      [.call 0, .task 0, .task 1, .task 0, .task 1, .call 0, .call 0]
    ¬ (evaluations s.history).Nodup ∧
      ¬ (AllReturned s.history → s.totalExecuted = (requests s.history).dedup.length) := by
  intro s
  have hhistory : s.history =
      [.resolve (.call 0) [false, false],
        .resolve (.task 0) [], .returned (.task 0) [] .empty, .evaluate 0 false .empty,
        .resolve (.task 1) [], .returned (.task 1) [] .empty, .evaluate 1 false .empty,
        .processed 0 false (.ok (some "false")), .processed 1 false (.ok (some "false")),
        .returned (.call 0) [false, false] (.ofList [("false", some "false")])] := rfl
  refine ⟨by decide, fun htotal => ?_⟩
  have hret : AllReturned s.history := by
    rw [hhistory]
    intro c args hmem
    simp only [List.mem_cons, Event.resolve.injEq, reduceCtorEq, List.not_mem_nil, false_or,
      or_false] at hmem
    rcases hmem with ⟨rfl, rfl⟩ | ⟨rfl, rfl⟩ | ⟨rfl, rfl⟩
    · exact ⟨.ofList [("false", some "false")], by simp⟩
    · exact ⟨.empty, by simp⟩
    · exact ⟨.empty, by simp⟩
  exact absurd (htotal hret) (by decide)

end NexusSdk.Cache
