import NexusSdk.Cache.Steps

/-! The cache does not depend on calls of `resolve` that are not made yet: with further calls before
and after the others, it makes the same steps. -/

namespace NexusSdk.Cache

open Lib

variable {Obj Val : Type}

/-- The name of a caller behind `n` more calls. -/
def Caller.shift (n : Nat) : Caller → Caller
  | .call i => .call (n + i)
  | .task t => .task t

def Event.shift (n : Nat) : Event Obj Val → Event Obj Val
  | .resolve c args => .resolve (c.shift n) args
  | .returned c args result => .returned (c.shift n) args result
  | .raised c e => .raised (c.shift n) e
  | e => e

/-- A call that is not made yet. -/
def Call.unmade (arguments : List Obj × Kwargs Val) : Call Obj Val :=
  ⟨arguments.1, arguments.2, .idle⟩

namespace State

/-- The state with the calls `before` and `after` the others. -/
def extend (before after : List (Call Obj Val)) (s : State Obj Val) : State Obj Val :=
  { s with
    calls := before ++ s.calls ++ after
    history := s.history.map (Event.shift before.length) }

variable {P : Inputs Obj Val} {s : State Obj Val} {before after : List (Call Obj Val)} {t i n : Nat}

theorem extend_log {e : Event Obj Val} :
    (s.extend before after).log (e.shift before.length) = (s.log e).extend before after := by
  simp only [extend, log, List.map_append, List.map_singleton]

theorem extend_nil : s.extend [] [] = s := by
  have hshift : (Event.shift 0 : Event Obj Val → Event Obj Val) = id := by
    funext e
    cases e with
    | resolve c args => cases c <;> simp [Event.shift, Caller.shift]
    | returned c args result => cases c <;> simp [Event.shift, Caller.shift]
    | raised c e => cases c <;> simp [Event.shift, Caller.shift]
    | evaluate t x kwargs => rfl
    | processed t x result => rfl
  simp only [extend, List.length_nil, hshift, List.map_id, List.nil_append, List.append_nil]

theorem initial_append [DecidableEq Obj] (a b c : List (List Obj × Kwargs Val)) :
    initial (a ++ (b ++ c)) = (initial b).extend (a.map .unmade) (c.map .unmade) := by
  simp only [initial, extend, List.map_append, List.append_assoc, List.map_nil]
  rfl

theorem extend_setStage {st : Stage Val} :
    (s.extend before after).setStage t st = (s.setStage t st).extend before after := rfl

theorem getElem?_extend (h : i < s.calls.length) :
    (s.extend before after).calls[before.length + i]? = s.calls[i]? := by
  rw [extend, List.append_assoc, List.getElem?_append_right (Nat.le_add_right _ _),
    Nat.add_sub_cancel_left, List.getElem?_append_left h]

theorem modify_append_of_lt {α : Type} (f : α → α) {l r : List α} {i : Nat} (h : i < l.length) :
    (l ++ r).modify i f = l.modify i f ++ r := by
  induction l generalizing i with
  | nil => exact absurd h (Nat.not_lt_zero i)
  | cons a l ih =>
    cases i with
    | zero => rfl
    | succ i =>
      rw [List.cons_append, List.modify_succ_cons, List.modify_succ_cons,
        ih (Nat.lt_of_succ_lt_succ h), List.cons_append]

theorem extend_setCall {st : CallState Val} (h : i < s.calls.length) :
    (s.extend before after).setCall (before.length + i) st =
      (s.setCall i st).extend before after := by
  simp only [extend, setCall]
  rw [List.append_assoc, List.modify, List.modifyTailIdx_add, ← List.modify,
    modify_append_of_lt _ h, ← List.append_assoc]

/-! ### Tasks -/

theorem extend_schedule {c : Caller} {args : List Obj} {kwargs : Kwargs Val} [DecidableEq Obj] :
    (s.extend before after).schedule (c.shift before.length) args kwargs =
      (s.schedule c args kwargs).extend before after := by
  have htasks (xs : List Obj) : ∀ s : State Obj Val,
      xs.foldl (createTask kwargs) (s.extend before after) =
        (xs.foldl (createTask kwargs) s).extend before after := by
    induction xs with
    | nil => exact fun _ => rfl
    | cons x xs ih => exact fun s => ih (s.createTask kwargs x)
  rw [schedule, schedule, ← htasks, ← extend_log]
  rfl

variable [DecidableEq Obj]

theorem extend_endProcess {x : Obj} {r : Except PyExc (Option Val)} :
    (s.extend before after).endProcess P t x r = (s.endProcess P t x r).extend before after := by
  have hlog : (s.extend before after).log (.processed t x r) =
      (s.log (.processed t x r)).extend before after := extend_log (e := .processed t x r)
  unfold endProcess
  rw [hlog]
  rfl

theorem extend_awaitReaders {task : Task Obj Val} :
    (s.extend before after).awaitReaders P t task n =
      (s.awaitReaders P t task n).extend before after := by
  have hwait : (s.extend before after).waitForCache P (P.readers task.obj) n =
      s.waitForCache P (P.readers task.obj) n := rfl
  simp only [awaitReaders, hwait]
  cases s.waitForCache P (P.readers task.obj) n with
  | sleeps m => rfl
  | raises e =>
    dsimp only
    rw [← extend_endProcess, ← extend_log]
    rfl
  | returns inputs =>
    dsimp only
    rw [← extend_setStage, ← extend_log, ← extend_log]
    rfl

theorem extend_advance : (s.extend before after).advance P t =
    (s.advance P t).extend before after := by
  have htask : (s.extend before after).tasks[t]? = s.tasks[t]? := rfl
  simp only [advance, htask]
  cases s.tasks[t]? with
  | none => rfl
  | some task =>
    dsimp only
    cases task.stage with
    | created => rfl
    | opening left =>
      cases left with
      | zero =>
        dsimp only
        split <;> rfl
      | succ left => rfl
    | entered =>
      have hdata : (s.extend before after).data task.obj = s.data task.obj := rfl
      dsimp only
      rw [hdata]
      cases s.data task.obj with
      | some v => exact extend_endProcess
      | none =>
        dsimp only
        rw [← extend_awaitReaders, ← extend_schedule]
        rfl
    | resolving m => exact extend_awaitReaders
    | evaluating kwargs left =>
      cases left with
      | zero =>
        dsimp only
        split
        · rw [← extend_endProcess]
          rfl
        · exact extend_endProcess
      | succ left => rfl
    | closing result left =>
      cases left with
      | zero =>
        dsimp only
        split <;> rfl
      | succ left => rfl
    | done result => rfl

theorem extend_stepTask : (s.extend before after).stepTask P t =
    (s.stepTask P t).extend before after := by
  have hsettle (m : Nat) (s : State Obj Val) :
      settle P t m (s.extend before after) = (settle P t m s).extend before after := by
    induction m generalizing s with
    | zero => rfl
    | succ m ih =>
      have hstage : (s.extend before after).stage? t = s.stage? t := rfl
      rw [settle, settle, hstage]
      split
      · rw [extend_advance]
        exact ih _
      · rfl
  rw [stepTask, stepTask, extend_advance, hsettle]

/-! ### Calls -/

theorem extend_awaitCall {call : Call Obj Val} (h : i < s.calls.length) :
    (s.extend before after).awaitCall P (before.length + i) call n =
      (s.awaitCall P i call n).extend before after := by
  have hwait : (s.extend before after).waitForCache P call.args n =
      s.waitForCache P call.args n := rfl
  simp only [awaitCall, hwait]
  cases s.waitForCache P call.args n with
  | sleeps m => exact extend_setCall h
  | raises e =>
    dsimp only
    rw [← extend_setCall (s := s.handOut.log (.raised (.call i) e)) h, ← extend_log]
    rfl
  | returns result =>
    dsimp only
    rw [← extend_setCall (s := s.log (.returned (.call i) call.args result)) h, ← extend_log]
    rfl

theorem extend_stepCall (h : i < s.calls.length) :
    (s.extend before after).stepCall P (before.length + i) =
      (s.stepCall P i).extend before after := by
  simp only [stepCall, getElem?_extend h]
  cases s.calls[i]? with
  | none => rfl
  | some call =>
    dsimp only
    cases call.state with
    | idle =>
      dsimp only
      have hlength : i < (s.schedule (.call i) call.args call.kwargs).calls.length := by
        rw [calls_schedule]
        exact h
      rw [← extend_awaitCall hlength, ← extend_schedule]
      rfl
    | polling m => exact extend_awaitCall h
    | returned result => rfl
    | raised e => rfl

/-- The caller is a task, or a call that the state has. -/
def Has (s : State Obj Val) : Caller → Prop
  | .call i => i < s.calls.length
  | .task _ => True

/-- With more calls, a step is the same. -/
theorem extend_step {c : Caller} (h : s.Has c) :
    (s.extend before after).step P (c.shift before.length) =
      (s.step P c).extend before after := by
  cases c with
  | call i => exact extend_stepCall h
  | task t => exact extend_stepTask

end State

end NexusSdk.Cache
