import NexusSdk.Cache.Accounting
import NexusSdk.Lib.Dependency
import Mathlib.Data.Prod.Lex

/-! For an acyclic input graph, every call of `resolve` ends if the tasks and the call move again and
again, whatever the hooks do.  A task waits only for its readers, so the argument is an induction on
the graph; each step of a task that does not wait brings it closer to its end. -/

namespace NexusSdk.Cache

open Lib

variable {Obj Val : Type} [DecidableEq Obj]

/-- What a task of `x` has achieved by its stage. -/
def Stage.Achieved (P : Inputs Obj Val) (s : State Obj Val) (x : Obj) : Stage Val → Prop
  | .resolving _ | .evaluating _ _ => ∀ y ∈ P.readers x, s.scheduled.contains y = true
  | .closing _ _ | .done (.ok _) => s.cache.contains x = true
  | _ => True

/-- What a call has achieved by its state. -/
def Call.Achieved (s : State Obj Val) (call : Call Obj Val) : Prop :=
  match call.state with
  | .polling _ => ∀ y ∈ call.args, s.scheduled.contains y = true
  | _ => True

structure Progressing (P : Inputs Obj Val) (s : State Obj Val) : Prop where
  tasks : ∀ (t : Nat) (task : Task Obj Val), s.tasks[t]? = some task →
    task.stage.Achieved P s task.obj
  calls : ∀ (i : Nat) (call : Call Obj Val), s.calls[i]? = some call → call.Achieved s

theorem Stage.Achieved.mono {P : Inputs Obj Val} {s s' : State Obj Val} {x : Obj}
    {st : Stage Val} (h : st.Achieved P s x) (hs : s.Grows s') : st.Achieved P s' x := by
  cases st with
  | resolving n => exact fun y hy => hs.scheduled y (h y hy)
  | evaluating kw n => exact fun y hy => hs.scheduled y (h y hy)
  | closing r n => exact hs.cache x h
  | done r =>
    cases r with
    | ok v => exact hs.cache x h
    | error e => trivial
  | _ => trivial

theorem Call.Achieved.mono {s s' : State Obj Val} {call : Call Obj Val} (h : call.Achieved s)
    (hs : s.Grows s') : call.Achieved s' := by
  obtain ⟨args, kw, st⟩ := call
  cases st with
  | polling n => exact fun y hy => hs.scheduled y (h y hy)
  | _ => trivial

namespace Progressing

variable {P : Inputs Obj Val} {s s' : State Obj Val} {t i n : Nat} {x : Obj} {args : List Obj}
  {c : Caller} {kw : Kwargs Val} {task : Task Obj Val}

theorem setStage {st : Stage Val} (h : Progressing P s)
    (hst : ∀ x, s.obj? t = some x → st.Achieved P s x) : Progressing P (s.setStage t st) where
  tasks t' task' ht' := by
    obtain ⟨task, htask, hobj, -, hstage⟩ := State.task_setStage ht'
    rw [hobj, hstage]
    split
    · next heq =>
      exact (hst task.obj (heq ▸ State.obj?_of_task htask)).mono State.grows_setStage
    · exact (h.tasks t' task htask).mono State.grows_setStage
  calls i call hcall := (h.calls i call hcall).mono State.grows_setStage

theorem setCall {st : CallState Val} (h : Progressing P s)
    (hst : ∀ call, s.calls[i]? = some call → Call.Achieved s { call with state := st }) :
    Progressing P (s.setCall i st) where
  tasks t task htask := (h.tasks t task htask).mono State.grows_setCall
  calls j call hcall := by
    rw [State.calls_setCall, List.getElem?_modify] at hcall
    obtain ⟨old, hold, rfl⟩ := Option.map_eq_some_iff.mp hcall
    split
    · next heq => exact (hst old (heq ▸ hold)).mono State.grows_setCall
    · exact (h.calls j old hold).mono State.grows_setCall

theorem frame (h : Progressing P s) (htasks : s'.tasks = s.tasks) (hcalls : s'.calls = s.calls)
    (hs : s.Grows s') : Progressing P s' where
  tasks t task htask := (h.tasks t task (htasks ▸ htask)).mono hs
  calls i call hcall := (h.calls i call (hcalls ▸ hcall)).mono hs

theorem handOut (h : Progressing P s) : Progressing P s.handOut :=
  h.frame rfl rfl State.grows_handOut

theorem log {e : Event Obj Val} (h : Progressing P s) : Progressing P (s.log e) :=
  h.frame rfl rfl State.grows_log

theorem schedule (h : Progressing P s) : Progressing P (s.schedule c args kw) := by
  have hs : s.Grows (s.schedule c args kw) := State.grows_schedule
  refine ⟨fun t task htask => ?_, fun i call hcall => ?_⟩
  · rcases State.task_schedule htask with htask | ⟨k, y, -, -, rfl⟩
    · exact (h.tasks t task htask).mono hs
    · trivial
  · exact (h.calls i call (by simpa using hcall)).mono hs

theorem endProcess {r : Except PyExc (Option Val)} (h : Progressing P s)
    (htask : s.tasks[t]? = some task) : Progressing P (s.endProcess P t task.obj r) := by
  refine setStage (s := { s.log (.processed t task.obj r) with
    cache := s.cache.set task.obj r.toOption.join }) ?_ fun x hx => ?_
  · refine h.frame rfl rfl ⟨fun _ _ => id, fun _ => id, fun x hx => ?_⟩
    show (s.cache.set _ _).contains x = true
    simp [hx]
  · obtain rfl : task.obj = x := by simpa [State.obj?, htask] using hx
    show (s.cache.set _ _).contains _ = true
    simp

theorem polls (h : Progressing P s) (hp : State.Polls P s c args s' n) :
    Progressing P s' ∧ ∀ y ∈ args, s'.scheduled.contains y = true := by
  cases hp with
  | first _ => exact ⟨h.schedule, fun y hy => State.contains_schedule.mpr (.inr hy)⟩
  | again hs =>
    refine ⟨h, ?_⟩
    cases c with
    | call i =>
      obtain ⟨kw, hcall⟩ := hs
      exact h.calls i _ hcall
    | task t =>
      obtain ⟨x, kw, htask, rfl⟩ := hs
      exact h.tasks t _ htask

theorem stepCall (h : Progressing P s) : Progressing P (s.stepCall P i) := by
  refine State.stepCall_rule fun s₁ hstep => ?_
  cases hstep with
  | idle _ => exact h
  | sleeps hp _ =>
    refine (h.polls hp).1.setCall fun call hcall => ?_
    show ∀ y ∈ call.args, _
    rw [State.args_of_polls_call hp hcall]
    exact (h.polls hp).2
  | raises hp _ => exact (h.polls hp).1.handOut.log.setCall fun _ _ => trivial
  | returns hp _ => exact (h.polls hp).1.log.setCall fun _ _ => trivial

theorem advance (h : Progressing P s) : Progressing P (s.advance P t) := by
  refine State.advance_rule h fun task s₁ htask hadv => ?_
  have hachieved := h.tasks t task htask
  have hobj {x : Obj} (hx : s.obj? t = some x) : task.obj = x := by
    simpa [State.obj?_of_task htask] using hx
  cases hadv with
  | start _ =>
    refine setStage (s := { s with totalExecuted := s.totalExecuted + 1 }) ?_ fun _ _ => trivial
    exact h.frame rfl rfl State.grows_totalExecuted
  | tick htick =>
    refine h.setStage fun x hx => ?_
    obtain rfl := hobj hx
    generalize task.stage = old at htick hachieved
    cases htick <;> exact hachieved
  | opened _ _ => exact h.setStage fun _ _ => trivial
  | openRaised _ _ => exact h.setStage fun _ _ => trivial
  | found _ _ => exact h.endProcess htask
  | sleeps hp _ =>
    refine (h.polls hp).1.setStage fun x hx => ?_
    obtain rfl : task.obj = x := by
      simpa [State.obj?_of_task (State.task_of_polls htask hp).1] using hx
    exact (h.polls hp).2
  | @raises s' n e hp _ =>
    have hlog : Progressing P (s'.handOut.log (.raised (.task t) e)) := (h.polls hp).1.handOut.log
    exact hlog.endProcess (State.task_of_polls htask hp).1
  | returns hp _ =>
    refine (h.polls hp).1.log.log.setStage fun x hx => ?_
    obtain rfl : task.obj = x := by
      simpa [State.obj?_of_task (State.task_of_polls htask hp).1] using hx
    exact (h.polls hp).2
  | @evaluated kw v _ _ =>
    have hs : Progressing P { s with data := Function.update s.data task.obj v } :=
      h.frame rfl rfl State.grows_data
    exact hs.endProcess htask
  | evaluateRaised _ _ => exact h.endProcess htask
  | @closed r hc _ =>
    refine h.setStage fun x hx => ?_
    obtain rfl := hobj hx
    rw [hc] at hachieved
    cases r with
    | ok v => exact hachieved
    | error e => trivial
  | closeRaised _ _ => exact h.setStage fun _ _ => trivial

theorem step (h : Progressing P s) : Progressing P (s.step P c) :=
  State.step_induction (fun _ => h.stepCall) (fun _ _ hs => hs.advance) h

theorem initial (P : Inputs Obj Val) (calls : List (List Obj × Kwargs Val)) :
    Progressing P (Cache.initial calls) where
  tasks t task htask := by simp [Cache.initial] at htask
  calls i call hcall := by
    obtain ⟨c, -, rfl⟩ : ∃ c, calls[i]? = some c ∧ ⟨c.1, c.2, .idle⟩ = call := by
      simpa [Cache.initial] using hcall
    trivial

end Progressing

/-! ### How far a task or a call is from its end -/

/-- Counts down to the end of a task, besides the steps in which it finds its readers incomplete:
the stages left, and in each the suspensions left. -/
def Stage.left (readers : Nat) : Stage Val → ℕ ×ₗ ℕ
  | .created => toLex (6, 0)
  | .opening n => toLex (5, n)
  | .entered => toLex (4, 0)
  | .resolving n => toLex (3, if n = readers then 0 else 1)
  | .evaluating _ n => toLex (2, n)
  | .closing _ n => toLex (1, n)
  | .done _ => toLex (0, 0)

def State.left (P : Inputs Obj Val) (t : Nat) (s : State Obj Val) : ℕ ×ₗ ℕ :=
  match s.tasks[t]? with
  | some task => task.stage.left (P.readers task.obj).length
  | none => toLex (0, 0)

/-- A task whose `advance` need not bring it closer to its end: it is done, or it sleeps until its
readers are complete. -/
def Waits (P : Inputs Obj Val) (s : State Obj Val) (task : Task Obj Val) : Prop :=
  (∃ r, task.stage = .done r) ∨ (∃ n, task.stage = .resolving n) ∧ s.firstFailure P = none ∧
    ¬ ∀ y ∈ P.readers task.obj, s.cache.contains y = true

section Left

variable {P : Inputs Obj Val} {s : State Obj Val} {t i : Nat} {x : Obj} {c : Caller}
  {task : Task Obj Val}

omit [DecidableEq Obj] in
theorem left_of_task (htask : s.tasks[t]? = some task) :
    s.left P t = task.stage.left (P.readers task.obj).length := by
  simp [State.left, htask]

omit [DecidableEq Obj] in
theorem left_setStage {st : Stage Val} (htask : s.tasks[t]? = some task) :
    (s.setStage t st).left P t = st.left (P.readers task.obj).length := by
  simp [State.left, htask]

theorem left_endProcess {r : Except PyExc (Option Val)} (htask : s.tasks[t]? = some task) :
    (s.endProcess P t x r).left P t = toLex (1, (P.contextClose t x).suspensions) :=
  left_setStage htask

theorem left_advance (htask : s.tasks[t]? = some task) :
    (s.advance P t).left P t < s.left P t ∨
      (s.advance P t).left P t = s.left P t ∧ Waits P s task := by
  rw [left_of_task htask]
  rcases State.advance_cases (P := P) htask with hadv | ⟨⟨r, hr⟩, heq⟩
  swap
  · right
    rw [heq, left_of_task htask]
    exact ⟨rfl, .inl ⟨r, hr⟩⟩
  generalize s.advance P t = s₁ at hadv
  cases hadv with
  | start hc =>
    left
    refine lt_of_eq_of_lt (left_setStage htask) ?_
    simp [hc, Stage.left, Prod.Lex.toLex_lt_toLex]
  | tick htick =>
    left
    rw [left_setStage htask]
    generalize task.stage = old at htick
    cases htick <;> simp [Stage.left, Prod.Lex.toLex_lt_toLex]
  | opened hc _ =>
    left
    rw [left_setStage htask]
    simp [hc, Stage.left, Prod.Lex.toLex_lt_toLex]
  | openRaised hc _ =>
    left
    rw [left_setStage htask]
    simp [hc, Stage.left, Prod.Lex.toLex_lt_toLex]
  | found hc _ =>
    left
    rw [left_endProcess htask]
    simp [hc, Stage.left, Prod.Lex.toLex_lt_toLex]
  | sleeps hp hw =>
    obtain ⟨hn, hnone, rfl⟩ := State.waitForCache_sleeps hw
    rw [left_setStage (State.task_of_polls htask hp).1]
    cases hp with
    | first harr =>
      obtain ⟨x, hfirst, -, -⟩ := harr
      obtain rfl := Option.some.inj (htask.symm.trans hfirst)
      left
      simp [Stage.left, Prod.Lex.toLex_lt_toLex]
    | again hsleeps =>
      obtain ⟨x, kw, hagain, -⟩ := hsleeps
      obtain rfl := Option.some.inj (htask.symm.trans hagain)
      by_cases hall : ∀ y ∈ P.readers x, s.cache.contains y = true
      · left
        have hm := State.numCached_eq_length.mpr hall
        simp [Stage.left, Prod.Lex.toLex_lt_toLex, hm, hn]
      · right
        have hm : s.numCached (P.readers x) ≠ (P.readers x).length := fun heq =>
          hall (State.numCached_eq_length.mp heq)
        refine ⟨?_, .inr ⟨⟨_, rfl⟩, hnone, hall⟩⟩
        simp only [Stage.left, if_neg hm, if_neg hn]
  | raises hp hw =>
    left
    obtain ⟨htask', hstage⟩ := State.task_of_polls htask hp
    refine lt_of_eq_of_lt (left_endProcess htask') ?_
    rcases hstage with hstage | hstage <;> simp [hstage, Stage.left, Prod.Lex.toLex_lt_toLex]
  | returns hp hw =>
    left
    obtain ⟨htask', hstage⟩ := State.task_of_polls htask hp
    refine lt_of_eq_of_lt (left_setStage htask') ?_
    rcases hstage with hstage | hstage <;> simp [hstage, Stage.left, Prod.Lex.toLex_lt_toLex]
  | evaluated hc _ =>
    left
    refine lt_of_eq_of_lt (left_endProcess htask) ?_
    simp [hc, Stage.left, Prod.Lex.toLex_lt_toLex]
  | evaluateRaised hc _ =>
    left
    rw [left_endProcess htask]
    simp [hc, Stage.left, Prod.Lex.toLex_lt_toLex]
  | closed hc _ =>
    left
    rw [left_setStage htask]
    simp [hc, Stage.left, Prod.Lex.toLex_lt_toLex]
  | closeRaised hc _ =>
    left
    rw [left_setStage htask]
    simp [hc, Stage.left, Prod.Lex.toLex_lt_toLex]

theorem left_advance_le : (s.advance P t).left P t ≤ s.left P t := by
  cases htask : s.tasks[t]? with
  | none => simp only [State.advance, htask, le_refl]
  | some task =>
    rcases left_advance (P := P) htask with hlt | ⟨heq, -⟩
    · exact hlt.le
    · exact heq.le

theorem left_step (htask : s.tasks[t]? = some task) :
    (s.step P (.task t)).left P t < s.left P t ∨
      (s.step P (.task t)).left P t ≤ s.left P t ∧ Waits P s task := by
  have hle : (s.step P (.task t)).left P t ≤ (s.advance P t).left P t :=
    State.settle_induction (I := fun s' => s'.left P t ≤ (s.advance P t).left P t)
      (fun s' hs _ => left_advance_le.trans hs) 4 le_rfl
  rcases left_advance (P := P) htask with hlt | ⟨heq, hwaits⟩
  · exact .inl (hle.trans_lt hlt)
  · exact .inr ⟨hle.trans heq.le, hwaits⟩

theorem left_step_le (htask : s.tasks[t]? = some task) : (s.step P c).left P t ≤ s.left P t := by
  by_cases hc : c = .task t
  · subst hc
    rcases left_step (P := P) htask with hlt | ⟨hle, -⟩
    · exact hlt.le
    · exact hle
  · rw [left_of_task htask, left_of_task (State.task_step_other hc htask)]

/-- Counts down to the end of a call of `n` arguments, besides the steps in which it finds them
incomplete. -/
def CallState.left (n : Nat) : CallState Val → Nat
  | .idle => 3
  | .polling m => if m = n then 1 else 2
  | .returned _ | .raised _ => 0

/-- A call sleeps until its arguments are complete. -/
def CallWaits (P : Inputs Obj Val) (s : State Obj Val) (call : Call Obj Val) : Prop :=
  (∃ n, call.state = .polling n) ∧ s.firstFailure P = none ∧
    ¬ ∀ y ∈ call.args, s.cache.contains y = true

/-- A step of a call that has not ended brings it closer to its end, or it waits. -/
theorem stepCall_left {call : Call Obj Val} (hcall : s.calls[i]? = some call) :
    ∃ st, (s.stepCall P i).calls[i]? = some { call with state := st } ∧
      (st.left call.args.length < call.state.left call.args.length ∨
        st.left call.args.length = call.state.left call.args.length ∧
          (call.state.ended = true ∨ CallWaits P s call)) := by
  have hstep : State.CallSteps P s i (s.stepCall P i) := State.stepCall_cases
  generalize s.stepCall P i = s₁ at hstep ⊢
  cases hstep with
  | idle hended => exact ⟨call.state, hcall, .inr ⟨rfl, .inl (hended call hcall)⟩⟩
  | @sleeps s' args n m hp hw =>
    obtain ⟨hn, hnone, rfl⟩ := State.waitForCache_sleeps hw
    obtain ⟨rfl, hstate⟩ := State.call_of_polls hcall hp
    refine ⟨.polling (s'.numCached call.args), by simp [State.calls_polls hp, hcall], ?_⟩
    cases hp with
    | first harr =>
      have hidle : call.state = .idle := congrArg Call.state (Option.some.inj (hcall.symm.trans harr))
      left
      simp only [hidle, CallState.left]
      split <;> omega
    | again hsleeps =>
      obtain ⟨kw, hagain⟩ := hsleeps
      have hpolling : call.state = .polling n :=
        congrArg Call.state (Option.some.inj (hcall.symm.trans hagain))
      simp only [hpolling, CallState.left, if_neg hn]
      split
      · left; omega
      · next hm =>
        rw [State.numCached_eq_length] at hm
        exact .inr ⟨rfl, .inr ⟨⟨n, hpolling⟩, hnone, hm⟩⟩
  | @raises s' args n e hp hw =>
    obtain ⟨hn, -⟩ := State.waitForCache_raises hw
    obtain ⟨rfl, hstate⟩ := State.call_of_polls hcall hp
    refine ⟨.raised e, by simp [State.calls_polls hp, hcall], .inl ?_⟩
    rcases hstate with hstate | hstate <;> simp [hstate, CallState.left, hn]
  | @returns s' args n d hp hw =>
    obtain ⟨hn, -⟩ := State.waitForCache_returns hw
    obtain ⟨rfl, hstate⟩ := State.call_of_polls hcall hp
    refine ⟨.returned d, by simp [State.calls_polls hp, hcall], .inl ?_⟩
    rcases hstate with hstate | hstate <;> simp [hstate, CallState.left, hn]

def State.callLeft (i : Nat) (s : State Obj Val) : Nat :=
  match s.calls[i]? with
  | some call => call.state.left call.args.length
  | none => 0

theorem callLeft_step {call : Call Obj Val} (hcall : s.calls[i]? = some call) :
    (∃ st, (s.step P c).calls[i]? = some { call with state := st }) ∧
      (s.step P c).callLeft i ≤ s.callLeft i := by
  by_cases hc : c = .call i
  · subst hc
    obtain ⟨st, hst, hleft⟩ := stepCall_left (P := P) hcall
    refine ⟨⟨st, hst⟩, ?_⟩
    show (s.stepCall P i).callLeft i ≤ _
    simp only [State.callLeft, hst, hcall]
    omega
  · have heq := State.call_step_other (P := P) (s := s) hc
    refine ⟨⟨call.state, heq.trans hcall⟩, ?_⟩
    simp only [State.callLeft, heq, le_refl]

end Left

/-! ### Inputs that are done -/

/-- The task that is recorded for `x` is done. -/
def State.RecordedDone (s : State Obj Val) (x : Obj) : Prop :=
  ∃ t r, s.scheduled.get? x = some t ∧ s.stage? t = some (.done r)

section Done

variable {P : Inputs Obj Val} {s s' : State Obj Val} {t n : Nat} {x : Obj} {args : List Obj}
  {c : Caller} {r : Except PyExc (Option Val)}

theorem recorded_polls (hp : State.Polls P s c args s' n) (h : s.scheduled.get? x = some t) :
    s'.scheduled.get? x = some t := by
  cases hp with
  | first _ => exact State.get?_schedule_of_some h
  | again _ => exact h

theorem recorded_advance {u : Nat} (h : s.scheduled.get? x = some t) :
    (s.advance P u).scheduled.get? x = some t := by
  refine State.advance_rule (Q := fun s' => s'.scheduled.get? x = some t) h
    fun task s₁ _ hadv => ?_
  cases hadv with
  | sleeps hp _ => have h' := recorded_polls hp h; exact h'
  | raises hp _ => have h' := recorded_polls hp h; exact h'
  | returns hp _ => have h' := recorded_polls hp h; exact h'
  | _ => exact h

theorem recorded_step (h : s.scheduled.get? x = some t) :
    (s.step P c).scheduled.get? x = some t := by
  cases c with
  | call i =>
    refine State.stepCall_rule (Q := fun s' => s'.scheduled.get? x = some t) fun s₁ hstep => ?_
    cases hstep with
    | idle _ => exact h
    | sleeps hp _ => have h' := recorded_polls hp h; exact h'
    | raises hp _ => have h' := recorded_polls hp h; exact h'
    | returns hp _ => have h' := recorded_polls hp h; exact h'
  | task u =>
    exact State.settle_induction (I := fun s => s.scheduled.get? x = some t)
      (fun s h _ => recorded_advance h) 4 (recorded_advance h)

theorem done_step (h : s.stage? t = some (.done r)) : (s.step P c).stage? t = some (.done r) := by
  obtain ⟨⟨x, kw, st⟩, htask, hdone⟩ := Option.map_eq_some_iff.mp h
  obtain rfl : st = .done r := hdone
  have hadvance (s : State Obj Val) (h : s.tasks[t]? = some ⟨x, kw, .done r⟩) :
      (s.advance P t).tasks[t]? = some ⟨x, kw, .done r⟩ := by
    simp only [State.advance, h]
  by_cases hc : c = .task t
  · subst hc
    have hkeep : (s.step P (.task t)).tasks[t]? = some ⟨x, kw, .done r⟩ :=
      State.settle_induction (I := fun s => s.tasks[t]? = some ⟨x, kw, .done r⟩)
        (fun s h _ => hadvance s h) 4 (hadvance s htask)
    exact State.stage?_of_task hkeep
  · exact State.stage?_of_task (State.task_step_other hc htask)

theorem recordedDone_step (h : s.RecordedDone x) : (s.step P c).RecordedDone x := by
  obtain ⟨t, r, hget, hdone⟩ := h
  exact ⟨t, r, recorded_step hget, done_step hdone⟩

/-- If no failure is recorded, inputs that are done are cached. -/
theorem cached_of_done (hacc : Accounted P s) (hprog : Progressing P s)
    (hdone : ∀ y ∈ args, s.RecordedDone y) (hnone : s.firstFailure P = none) :
    ∀ y ∈ args, s.cache.contains y = true := by
  intro y hy
  obtain ⟨t, r, hget, hstage⟩ := hdone y hy
  obtain ⟨task, htask, rfl⟩ := State.exists_task_of_obj? (hacc.recorded y t hget)
  rw [State.stage?_of_task htask] at hstage
  have hachieved := hprog.tasks t task htask
  rw [Option.some.inj hstage] at hachieved
  cases r with
  | ok v => exact hachieved
  | error e =>
    rw [← State.stage?_of_task htask] at hstage
    exact absurd hstage (State.firstFailure_eq_none.mp hnone _ t e hget)

end Done

/-! ### Schedules -/

/-- The call has returned or raised. -/
def State.CallEnded (s : State Obj Val) (i : Nat) : Prop :=
  ∃ call, s.calls[i]? = some call ∧ call.state.ended = true

section Schedules

variable {P : Inputs Obj Val} {s : State Obj Val} {σ : ℕ → Caller} {t i n : Nat} {x : Obj}

theorem booked_step {c : Caller} (h : Accounted P s ∧ Progressing P s) :
    Accounted P (s.step P c) ∧ Progressing P (s.step P c) :=
  ⟨h.1.step, h.2.step⟩

variable (htasks : ∀ t, ∀ k, ∃ m ≥ k, σ m = .task t)

include htasks

theorem eventually_readers_scheduled
    (hn : Accounted P (stateAt (State.step P) s σ n) ∧ Progressing P (stateAt (State.step P) s σ n))
    (hx : (stateAt (State.step P) s σ n).scheduled.get? x = some t) :
    Eventually (State.step P) s σ n fun s =>
      s.RecordedDone x ∨ ∀ y ∈ P.readers x, s.scheduled.contains y = true := by
  refine Eventually.of_measure (M := fun _ c => c = .task t) (State.left P t)
    (I := fun s => (Accounted P s ∧ Progressing P s) ∧ s.scheduled.get? x = some t) ?_ ?_ ?_
    (fun k _ => ?_) ⟨hn, hx⟩
  · exact fun s c h => ⟨booked_step h.1, recorded_step h.2⟩
  · intro s c h _
    obtain ⟨task, htask, -⟩ := State.exists_task_of_obj? (h.1.1.recorded x t h.2)
    exact left_step_le htask
  · rintro s c rfl h hgoal
    obtain ⟨task, htask, rfl⟩ := State.exists_task_of_obj? (h.1.1.recorded x t h.2)
    rcases left_step (P := P) htask with hlt | ⟨-, ⟨r, hdone⟩ | ⟨⟨m, hm⟩, -, -⟩⟩
    · exact .inr hlt
    · refine absurd (.inl ⟨t, r, h.2, ?_⟩) hgoal
      rw [State.stage?_of_task htask, hdone]
    · have hachieved := h.1.2.tasks t task htask
      rw [hm] at hachieved
      exact absurd (.inr hachieved) hgoal
  · obtain ⟨m, hm, hσ⟩ := htasks t k
    exact ⟨m, hm, .inl hσ⟩

/-- A scheduled input is done at last. -/
theorem eventually_done (hac : Acyclic P.readers) (hs : Accounted P s ∧ Progressing P s)
    (hx : (stateAt (State.step P) s σ n).scheduled.contains x = true) :
    Eventually (State.step P) s σ n fun s => s.RecordedDone x := by
  have hbooked (n : ℕ) : Accounted P (stateAt (State.step P) s σ n) ∧
      Progressing P (stateAt (State.step P) s σ n) :=
    stateAt_invariant (I := fun s => Accounted P s ∧ Progressing P s) (fun _ _ h => booked_step h)
      hs n
  induction x using WellFounded.induction hac generalizing n with
  | _ x ih =>
  obtain ⟨t, ht⟩ := Dict.contains_iff.mp hx
  refine (eventually_readers_scheduled htasks (hbooked n) ht).chain fun m hm hgoal => ?_
  rcases hgoal with hdone | hreaders
  · exact ⟨m, le_rfl, hdone⟩
  have hall := Eventually.all (P := fun y (s : State Obj Val) => s.RecordedDone y)
    (fun y s c h => recordedDone_step h) fun y hy => ih y hy (hreaders y hy)
  refine hall.chain fun k hk hdone => ?_
  have ht' : (stateAt (State.step P) s σ k).scheduled.get? x = some t :=
    stateAt_stable (P := fun s : State Obj Val => s.scheduled.get? x = some t)
      (fun s c h => recorded_step h) (hm.trans hk) ht
  refine Eventually.of_measure (M := fun _ c => c = .task t) (State.left P t)
    (I := fun s => (Accounted P s ∧ Progressing P s) ∧ s.scheduled.get? x = some t ∧
      ∀ y ∈ P.readers x, s.RecordedDone y) ?_ ?_ ?_ (fun j _ => ?_) ⟨hbooked k, ht', hdone⟩
  · exact fun s c h => ⟨booked_step h.1, recorded_step h.2.1,
      fun y hy => recordedDone_step (h.2.2 y hy)⟩
  · intro s c h _
    obtain ⟨task, htask, -⟩ := State.exists_task_of_obj? (h.1.1.recorded x t h.2.1)
    exact left_step_le htask
  · rintro s c rfl h hgoal
    obtain ⟨task, htask, rfl⟩ := State.exists_task_of_obj? (h.1.1.recorded x t h.2.1)
    rcases left_step (P := P) htask with hlt | ⟨-, ⟨r, hdone⟩ | ⟨-, hnone, hwait⟩⟩
    · exact .inr hlt
    · refine absurd ⟨t, r, h.2.1, ?_⟩ hgoal
      rw [State.stage?_of_task htask, hdone]
    · exact absurd (cached_of_done h.1.1 h.1.2 h.2.2 hnone) hwait
  · obtain ⟨m, hm, hσ⟩ := htasks t j
    exact ⟨m, hm, .inl hσ⟩

/-- A call that moves again and again, until it ends, ends. -/
theorem eventually_callEnded (hac : Acyclic P.readers) (hs : Accounted P s ∧ Progressing P s)
    {call : Call Obj Val} (hcall : s.calls[i]? = some call)
    (hagain : ∀ k ≥ n, ∃ m ≥ k, σ m = .call i ∨ (stateAt (State.step P) s σ m).CallEnded i) :
    Eventually (State.step P) s σ n fun s => s.CallEnded i := by
  have hI (s : State Obj Val) (c : Caller) (h : (Accounted P s ∧ Progressing P s) ∧
      ∃ st, s.calls[i]? = some { call with state := st }) :
      (Accounted P (s.step P c) ∧ Progressing P (s.step P c)) ∧
        ∃ st, (s.step P c).calls[i]? = some { call with state := st } := by
    obtain ⟨st, hst⟩ := h.2
    exact ⟨booked_step h.1, (callLeft_step (c := c) (P := P) hst).1⟩
  have hle (s : State Obj Val) (c : Caller)
      (h : ∃ st, s.calls[i]? = some { call with state := st }) :
      (s.step P c).callLeft i ≤ s.callLeft i := by
    obtain ⟨st, hst⟩ := h
    exact (callLeft_step (c := c) (P := P) hst).2
  have hdown (s : State Obj Val) (h : ∃ st, s.calls[i]? = some { call with state := st }) :
      s.CallEnded i ∨ (s.step P (.call i)).callLeft i < s.callLeft i ∨
        ∃ st, s.calls[i]? = some { call with state := st } ∧
          CallWaits P s { call with state := st } := by
    obtain ⟨st, hst⟩ := h
    obtain ⟨st', hst', hlt | ⟨-, hended | hwaits⟩⟩ := stepCall_left (P := P) hst
    · right; left
      show (s.stepCall P i).callLeft i < _
      simpa only [State.callLeft, hst, hst'] using hlt
    · exact .inl ⟨_, hst, hended⟩
    · exact .inr (.inr ⟨st, hst, hwaits⟩)
  have hkeep (n : ℕ) : (Accounted P (stateAt (State.step P) s σ n) ∧
      Progressing P (stateAt (State.step P) s σ n)) ∧
      ∃ st, (stateAt (State.step P) s σ n).calls[i]? = some { call with state := st } :=
    stateAt_invariant (I := fun s => (Accounted P s ∧ Progressing P s) ∧
      ∃ st, s.calls[i]? = some { call with state := st }) hI ⟨hs, call.state, hcall⟩ n
  have hscheduled : Eventually (State.step P) s σ n fun s =>
      s.CallEnded i ∨ ∀ y ∈ call.args, s.scheduled.contains y = true := by
    refine Eventually.of_measure (M := fun _ c => c = .call i) (State.callLeft i) hI
      (fun s c h _ => hle s c h.2) ?_ (fun k hk => ?_) (hkeep n)
    · rintro s c rfl h hgoal
      rcases hdown s h.2 with hended | hlt | ⟨st, hst, ⟨m, hm⟩, -, -⟩
      · exact absurd (.inl hended) hgoal
      · exact .inr hlt
      · obtain rfl : st = .polling m := hm
        exact absurd (.inr (h.1.2.calls i _ hst)) hgoal
    · obtain ⟨m, hm, hor⟩ := hagain k hk
      exact ⟨m, hm, hor.imp_right .inl⟩
  refine hscheduled.chain fun m hm hgoal => ?_
  rcases hgoal with hended | hscheduled
  · exact ⟨m, le_rfl, hended⟩
  have hall := Eventually.all (P := fun y (s : State Obj Val) => s.RecordedDone y)
    (fun y s c h => recordedDone_step h) fun y hy =>
      eventually_done htasks hac hs (hscheduled y hy)
  refine hall.chain fun k hk hdone => ?_
  refine Eventually.of_measure (M := fun _ c => c = .call i) (State.callLeft i)
    (I := fun s => ((Accounted P s ∧ Progressing P s) ∧
      ∃ st, s.calls[i]? = some { call with state := st }) ∧ ∀ y ∈ call.args, s.RecordedDone y)
    ?_ (fun s c h _ => hle s c h.1.2) ?_ (fun j hj => hagain j (hm.trans (hk.trans hj)))
    ⟨hkeep k, hdone⟩
  · exact fun s c h => ⟨hI s c h.1, fun y hy => recordedDone_step (h.2 y hy)⟩
  · rintro s c rfl h hgoal
    rcases hdown s h.1.2 with hended | hlt | ⟨st, hst, -, hnone, hwait⟩
    · exact absurd hended hgoal
    · exact .inr hlt
    · exact absurd (cached_of_done h.1.1.1 h.1.1.2 h.2 hnone) hwait

end Schedules

end NexusSdk.Cache
