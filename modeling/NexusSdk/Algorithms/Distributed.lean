import NexusSdk.Lib.Run
import NexusSdk.Python

/-! `DistributedAlgorithm._run`: its sub-algorithms run as tasks of the event loop, in any order, beside
the coroutine that splits the problem, waits and folds. -/

namespace NexusSdk.Algorithms.Distributed

open Lib

/-- A positional argument of `asyncio.wait`: a task or a collection of tasks, by their numbers. -/
inductive WaitArg
  | task (i : Nat)
  | collection (tasks : List Nat)

/-- `asyncio.wait`: what it waits for. -/
def asyncioWait : List WaitArg → Except PyExc (List Nat)
  | [] => .error (.raised typeError "wait() missing 1 required positional argument: 'fs'")
  | [.task _] => .error (.raised typeError "expect a list of futures, not Task")
  | [.collection []] => .error (.raised valueError "Set of Tasks/Futures is empty.")
  | [.collection (i :: rest)] => .ok (i :: rest)
  | first :: second :: rest => .error (.raised typeError ("wait() takes 1 positional argument but " ++
      toString (first :: second :: rest).length ++ " were given"))

variable {A K R : Type}

inductive TaskStatus (R : Type)
  | created
  | running
  | finished (outcome : Except PyExc R)

/-- The task of `split.run(**kwargs)`. -/
structure Task (A K R : Type) where
  split : A
  kwargs : K
  status : TaskStatus R

def TaskStatus.isFinished : TaskStatus R → Bool
  | finished _ => true
  | _ => false

/-- Where the coroutine `_run` stands. -/
inductive Control (R : Type)
  /-- in `_split` -/
  | splitting
  | waiting (tasks : List Nat)
  /-- in `_fold` -/
  | folding
  | ended (outcome : Except PyExc R)

inductive Event (A K R : Type)
  | split (splits : List A)
  | start (i : Nat) (split : A) (kwargs : K)
  | finish (i : Nat) (outcome : Except PyExc R)
  | fold (splitTasks : List Nat)
  | folded (outcome : Except PyExc R)

structure State (A K R : Type) where
  control : Control R
  tasks : List (Task A K R)
  trace : List (Event A K R)

inductive Move (A R : Type)
  /-- `_split` returns or raises -/
  | split (outcome : Except PyExc (List A))
  | start (i : Nat)
  | finish (i : Nat) (outcome : Except PyExc R)
  /-- `asyncio.wait` returns -/
  | wake
  /-- `_fold` returns or raises -/
  | fold (outcome : Except PyExc R)

namespace State

def initial : State A K R := ⟨.splitting, [], []⟩

/-- From the result of `_split` to the next `await`. -/
def createTasks (s : State A K R) (kwargs : K) (splits : List A) : State A K R where
  control :=
    match asyncioWait ((List.range splits.length).map .task) with
    | .ok tasks => .waiting tasks
    | .error e => .ended (.error e)
  tasks := splits.map fun split => ⟨split, kwargs, .created⟩
  trace := s.trace ++ [.split splits]

def stepSplit (s : State A K R) (kwargs : K) (outcome : Except PyExc (List A)) : State A K R :=
  match s.control, outcome with
  | .splitting, .ok splits => s.createTasks kwargs splits
  | .splitting, .error e => { s with control := .ended (.error e) }
  | _, _ => s

def stepStart (s : State A K R) (i : Nat) : State A K R :=
  match s.tasks[i]? with
  | some ⟨split, kwargs, .created⟩ =>
    { s with
      tasks := s.tasks.set i ⟨split, kwargs, .running⟩
      trace := s.trace ++ [.start i split kwargs] }
  | _ => s

def stepFinish (s : State A K R) (i : Nat) (outcome : Except PyExc R) : State A K R :=
  match s.tasks[i]? with
  | some ⟨split, kwargs, .running⟩ =>
    { s with
      tasks := s.tasks.set i ⟨split, kwargs, .finished outcome⟩
      trace := s.trace ++ [.finish i outcome] }
  | _ => s

def isDone (s : State A K R) (i : Nat) : Bool := s.tasks[i]?.any fun task => task.status.isFinished

def stepWake (s : State A K R) : State A K R :=
  match s.control with
  | .waiting tasks =>
    if tasks.all s.isDone then
      { s with
        control := .folding
        trace := s.trace ++ [.fold (List.range s.tasks.length)] }
    else s
  | _ => s

def stepFold (s : State A K R) (outcome : Except PyExc R) : State A K R :=
  match s.control with
  | .folding =>
    { s with
      control := .ended outcome
      trace := s.trace ++ [.folded outcome] }
  | _ => s

end State

/-- A step of `_run(**kwargs)` and its tasks; a move that is not possible changes nothing. -/
def step (kwargs : K) (s : State A K R) : Move A R → State A K R
  | .split outcome => s.stepSplit kwargs outcome
  | .start i => s.stepStart i
  | .finish i outcome => s.stepFinish i outcome
  | .wake => s.stepWake
  | .fold outcome => s.stepFold outcome

/-! ### What the algorithm is for -/

def Event.start? : Event A K R → Option (Nat × A × K)
  | start i algorithm kwargs => some (i, algorithm, kwargs)
  | _ => none

/-- Every sub-algorithm was started once with the keyword arguments; after all of them were done, they
were folded once, in their order; and the result is that of the fold. -/
structure FoldsAll (kwargs : K) (splits : List A) (s : State A K R) : Prop where
  started_once : ∀ i split, splits[i]? = some split →
    (s.trace.filterMap Event.start?).filter (fun event => event.1 = i) = [(i, split, kwargs)]
  folded_once : ∃ before after, s.trace = before ++ .fold (List.range splits.length) :: after ∧
    (∀ tasks, .fold tasks ∉ before ++ after) ∧
    ∀ i < splits.length, ∃ outcome, .finish i outcome ∈ before
  returned : ∃ outcome, .folded outcome ∈ s.trace ∧ s.control = .ended outcome

/-! ### What it does -/

/-- `asyncio.wait` accepts no tasks as its positional arguments, however many they are. -/
theorem asyncioWait_tasks (tasks : List Nat) :
    ∃ e, asyncioWait (tasks.map .task) = .error e ∧ e.isInstance typeError = true := by
  match tasks with
  | [] => exact ⟨_, rfl, PyClass.isSubclass_self typeError⟩
  | [i] => exact ⟨_, rfl, PyClass.isSubclass_self typeError⟩
  | i :: j :: rest => exact ⟨_, rfl, PyClass.isSubclass_self typeError⟩

/-- The coroutine never waits, and nothing is folded. -/
structure Unfolded (s : State A K R) : Prop where
  control : s = .initial ∨ ∃ outcome, s.control = .ended outcome
  failed : ∀ splits, .split splits ∈ s.trace →
    ∃ e, s.control = .ended (.error e) ∧ e.isInstance typeError = true
  trace : ∀ tasks, .fold tasks ∉ s.trace

variable {s : State A K R} {outcome : Except PyExc R}

theorem unfolded_initial : Unfolded (.initial : State A K R) :=
  ⟨.inl rfl, fun _ h => absurd h List.not_mem_nil, fun _ => List.not_mem_nil⟩

theorem unfolded_createTasks (kwargs : K) (splits : List A) :
    Unfolded ((.initial : State A K R).createTasks kwargs splits) := by
  obtain ⟨e, hwait, htype⟩ := asyncioWait_tasks (List.range splits.length)
  have hcontrol : ((.initial : State A K R).createTasks kwargs splits).control = .ended (.error e) := by
    simp only [State.createTasks, hwait]
  refine ⟨.inr ⟨_, hcontrol⟩, fun _ _ => ⟨e, hcontrol, htype⟩, fun tasks hmem => ?_⟩
  simp [State.createTasks, State.initial] at hmem

/-- An event of a task leaves the coroutine where it is. -/
theorem unfolded_of_task_event {s' : State A K R} {event : Event A K R} (h : Unfolded s)
    (hended : s.control = .ended outcome) (hcontrol : s'.control = s.control)
    (htrace : s'.trace = s.trace ++ [event]) (hsplit : ∀ splits, event ≠ .split splits)
    (hfold : ∀ tasks, event ≠ .fold tasks) : Unfolded s' := by
  refine ⟨.inr ⟨outcome, hcontrol.trans hended⟩, fun splits hmem => ?_, fun tasks hmem => ?_⟩
  · rw [htrace, List.mem_append, List.mem_singleton] at hmem
    rw [hcontrol]
    exact h.failed splits (hmem.resolve_right fun heq => hsplit splits heq.symm)
  · rw [htrace, List.mem_append, List.mem_singleton] at hmem
    exact hmem.elim (h.trace tasks) fun heq => hfold tasks heq.symm

theorem unfolded_stepStart (h : Unfolded s) (hended : s.control = .ended outcome) (i : Nat) :
    Unfolded (s.stepStart i) := by
  unfold State.stepStart
  split
  · exact unfolded_of_task_event h hended rfl rfl (fun _ heq => by cases heq)
      (fun _ heq => by cases heq)
  · exact h

theorem unfolded_stepFinish (h : Unfolded s) (hended : s.control = .ended outcome) (i : Nat)
    (result : Except PyExc R) : Unfolded (s.stepFinish i result) := by
  unfold State.stepFinish
  split
  · exact unfolded_of_task_event h hended rfl rfl (fun _ heq => by cases heq)
      (fun _ heq => by cases heq)
  · exact h

/-- Before `_split` ends nothing else happens, and after it only the tasks make steps. -/
theorem unfolded_step (kwargs : K) (h : Unfolded s) (move : Move A R) :
    Unfolded (step kwargs s move) := by
  rcases h.control with rfl | ⟨outcome, hended⟩
  · cases move with
    | split result =>
      cases result with
      | ok splits => exact unfolded_createTasks kwargs splits
      | error e =>
        refine ⟨.inr ⟨.error e, rfl⟩, fun _ hmem => ?_, fun _ => List.not_mem_nil⟩
        exact absurd hmem List.not_mem_nil
    | start i => exact h
    | finish i result => exact h
    | wake => exact h
    | fold result => exact h
  · cases move with
    | split result =>
      simp only [step, State.stepSplit, hended]
      exact h
    | start i => exact unfolded_stepStart h hended i
    | finish i result => exact unfolded_stepFinish h hended i result
    | wake =>
      simp only [step, State.stepWake, hended]
      exact h
    | fold result =>
      simp only [step, State.stepFold, hended]
      exact h

theorem unfolded_run (kwargs : K) (σ : List (Move A R)) :
    Unfolded (run (step kwargs) (.initial : State A K R) σ) :=
  run_invariant (I := Unfolded) (fun _ move h => unfolded_step kwargs h move) unfolded_initial σ

theorem Unfolded.not_foldsAll (h : Unfolded s) (kwargs : K) (splits : List A) :
    ¬ FoldsAll kwargs splits s := by
  intro hfolds
  obtain ⟨before, after, htrace, -⟩ := hfolds.folded_once
  have hfold := h.trace (List.range splits.length)
  rw [htrace] at hfold
  exact hfold (List.mem_append_right _ List.mem_cons_self)

/-- Whatever `_split` returns, in whatever order the tasks run and however they end, they are never
folded. -/
theorem never_folds (kwargs : K) (splits : List A) (σ : List (Move A R)) :
    ¬ FoldsAll kwargs splits (run (step kwargs) .initial σ) :=
  (unfolded_run kwargs σ).not_foldsAll kwargs splits

/-- Two sub-algorithms run to their end, but the algorithm has failed before they start. -/
theorem two_splits_not_folded :
    let s := run (step ()) State.initial [.split (.ok ["left", "right"]), .start 0, .start 1,
      .finish 1 (.ok 2), .finish 0 (.ok 1), .wake, .fold (.ok 3)]
    s.control = .ended (.error (.raised typeError
        "wait() takes 1 positional argument but 2 were given")) ∧
      ¬ FoldsAll () ["left", "right"] s :=
  ⟨rfl, (unfolded_run () _).not_foldsAll () ["left", "right"]⟩

end NexusSdk.Algorithms.Distributed
