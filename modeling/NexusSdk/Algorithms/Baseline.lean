import NexusSdk.Algorithms.RemoteAlgorithm
import NexusSdk.Cache.Progress
import NexusSdk.Cache.Quiescence

/-! `BaselineAlgorithm.run`: the inputs are resolved, and then `_run` is called with them.  The
coroutine runs among the tasks of the input cache, in which its own call of `resolve` is number 0. -/

namespace NexusSdk.Algorithms

open Lib

/-- A subclass of `BaselineAlgorithm`, its input cache, and the arguments of `run`. -/
structure BaselineAlgorithm (Obj Val V R : Type) where
  inputs : Cache.Inputs Obj Val
  /-- `_input_processors` -/
  inputProcessors : List Obj
  kwargs : Cache.Kwargs Val
  /-- what `_run` sees of a keyword argument or a result -/
  asArg : Option Val → ArgValue V
  /-- `_run` -/
  coreRun : RunArgs V → Cache.Hook R
  /-- the other calls of `resolve` of the same cache -/
  others : List (List Obj × Cache.Kwargs Val)

/-- Where the coroutine stands. -/
inductive RunPhase (V R : Type)
  | resolving
  | running (args : RunArgs V) (left : Nat)
  | ended (outcome : Except PyExc R)

/-- The steps up to the end of `_run`. -/
def RunPhase.left {V R : Type} : RunPhase V R → Nat
  | .running _ n => n + 1
  | _ => 0

namespace BaselineAlgorithm

variable {Obj Val V R : Type}

structure State (Obj Val V R : Type) where
  cache : Cache.State Obj Val
  phase : RunPhase V R
  /-- `_inputs` -/
  inputs : Cache.Kwargs Val
  /-- the arguments of the calls of `_run`, for the statements of properties -/
  invoked : List (RunArgs V)

variable (A : BaselineAlgorithm Obj Val V R)

def toArgs (kwargs : Cache.Kwargs Val) : RunArgs V :=
  .ofList (kwargs.items.map fun item => (item.1, A.asArg item.2))

/-- The calls of `resolve`, that of `run` first. -/
def calls : List (List Obj × Cache.Kwargs Val) := (A.inputProcessors, A.kwargs) :: A.others

/-- `_measured_run` is called. -/
def begin (s : State Obj Val V R) (inputs : Cache.Kwargs Val) : State Obj Val V R :=
  match measuredArgs (A.toArgs A.kwargs) (A.toArgs inputs) with
  | .error e => { s with inputs, phase := .ended (.error e) }
  | .ok args =>
    { s with
      inputs
      phase := .running args (A.coreRun args).suspensions
      invoked := s.invoked ++ [args] }

variable [DecidableEq Obj]

/-- The coroutine goes on to its next suspension. -/
def stepRun (s : State Obj Val V R) : State Obj Val V R :=
  match s.phase with
  | .resolving =>
    let s := { s with cache := s.cache.step A.inputs (.call 0) }
    match s.cache.calls[0]?.map Cache.Call.state with
    | some (.returned inputs) => A.begin s inputs
    | some (.raised e) => { s with phase := .ended (.error e) }
    | _ => s
  | .running args (n + 1) => { s with phase := .running args n }
  | .running args 0 => { s with phase := .ended (A.coreRun args).outcome }
  | .ended _ => s

/-- One step of the event loop; call 0 stands for the coroutine of `run`. -/
def step (s : State Obj Val V R) (c : Cache.Caller) : State Obj Val V R :=
  if c = .call 0 then A.stepRun s else { s with cache := s.cache.step A.inputs c }

def initial : State Obj Val V R := ⟨Cache.initial A.calls, .resolving, .empty, []⟩

def exec (σ : List Cache.Caller) : State Obj Val V R := run A.step A.initial σ

/-! ### Every run -/

/-- The call of `resolve` in the given state. -/
def resolveCall (st : Cache.CallState Val) : Cache.Call Obj Val :=
  ⟨A.inputProcessors, A.kwargs, st⟩

/-- What the phase says about the call of `resolve`, the inputs and the calls of `_run`. -/
def PhaseSound (s : State Obj Val V R) : RunPhase V R → Prop
  | .resolving => s.invoked = [] ∧ s.inputs = .empty ∧
    ∃ st, s.cache.calls[0]? = some (A.resolveCall st) ∧ st.ended = false
  | .running args _ => s.invoked = [args] ∧
    s.cache.calls[0]? = some (A.resolveCall (.returned s.inputs)) ∧
    measuredArgs (A.toArgs A.kwargs) (A.toArgs s.inputs) = .ok args
  | .ended outcome =>
    (∃ e, s.cache.calls[0]? = some (A.resolveCall (.raised e)) ∧ s.inputs = .empty ∧
      s.invoked = [] ∧ outcome = .error e) ∨
    s.cache.calls[0]? = some (A.resolveCall (.returned s.inputs)) ∧
      ((∃ e, measuredArgs (A.toArgs A.kwargs) (A.toArgs s.inputs) = .error e ∧
        s.invoked = [] ∧ outcome = .error e) ∨
      ∃ args, measuredArgs (A.toArgs A.kwargs) (A.toArgs s.inputs) = .ok args ∧
        s.invoked = [args] ∧ outcome = (A.coreRun args).outcome)

def Sound (s : State Obj Val V R) : Prop := A.PhaseSound s s.phase

variable {A} {s s' : State Obj Val V R} {c : Cache.Caller}

omit [DecidableEq Obj] in
theorem cache_begin (s : State Obj Val V R) (inputs : Cache.Kwargs Val) :
    (A.begin s inputs).cache = s.cache := by
  unfold begin
  split <;> rfl

omit [DecidableEq Obj] in
theorem sound_begin {inputs : Cache.Kwargs Val} (hinvoked : s.invoked = [])
    (hcall : s.cache.calls[0]? = some (A.resolveCall (.returned inputs))) :
    A.Sound (A.begin s inputs) := by
  unfold begin
  cases hargs : measuredArgs (A.toArgs A.kwargs) (A.toArgs inputs) with
  | error e => exact .inr ⟨hcall, .inl ⟨e, hargs, hinvoked, rfl⟩⟩
  | ok args =>
    refine ⟨?_, hcall, hargs⟩
    show s.invoked ++ [args] = [args]
    rw [hinvoked, List.nil_append]

/-- The call of `resolve` stays the call of `resolve`. -/
theorem call_step {cache : Cache.State Obj Val} {st : Cache.CallState Val}
    (h : cache.calls[0]? = some (A.resolveCall st)) (c : Cache.Caller) :
    ∃ st', (cache.step A.inputs c).calls[0]? = some (A.resolveCall st') :=
  (Cache.callLeft_step (c := c) h).1

theorem sound_stepRun (h : A.Sound s) : A.Sound (A.stepRun s) := by
  unfold Sound at h
  unfold stepRun
  cases hphase : s.phase with
  | resolving =>
    rw [hphase] at h
    obtain ⟨hinvoked, hinputs, st, hcall, -⟩ := h
    obtain ⟨st', hcall'⟩ := call_step (A := A) hcall (.call 0)
    have hopen (hst' : st'.ended = false) :
        A.Sound { s with cache := s.cache.step A.inputs (.call 0), phase := .resolving } :=
      ⟨hinvoked, hinputs, st', hcall', hst'⟩
    simp only [hcall', Option.map_some]
    cases st' with
    | returned d => exact sound_begin hinvoked hcall'
    | raised e => exact .inl ⟨e, hcall', hinputs, hinvoked, rfl⟩
    | idle => exact hopen rfl
    | polling n => exact hopen rfl
  | running args left =>
    rw [hphase] at h
    obtain ⟨hinvoked, hcall, hargs⟩ := h
    cases left with
    | zero => exact .inr ⟨hcall, .inr ⟨args, hargs, hinvoked, rfl⟩⟩
    | succ n => exact ⟨hinvoked, hcall, hargs⟩
  | ended outcome =>
    show A.PhaseSound s s.phase
    rw [hphase] at h ⊢
    exact h

omit [DecidableEq Obj] in
/-- The steps of the other coroutines do not change the call of `resolve`. -/
theorem Sound.frame {cache : Cache.State Obj Val} (h : A.Sound s)
    (hcall : cache.calls[0]? = s.cache.calls[0]?) : A.Sound { s with cache } := by
  unfold Sound at h ⊢
  cases hphase : s.phase with
  | resolving =>
    rw [hphase] at h
    obtain ⟨hinvoked, hinputs, st, hst, hopen⟩ := h
    exact ⟨hinvoked, hinputs, st, hcall.trans hst, hopen⟩
  | running args left =>
    rw [hphase] at h
    exact ⟨h.1, hcall.trans h.2.1, h.2.2⟩
  | ended outcome =>
    rw [hphase] at h
    rcases h with ⟨e, hst, hrest⟩ | ⟨hst, hrest⟩
    · exact .inl ⟨e, hcall.trans hst, hrest⟩
    · exact .inr ⟨hcall.trans hst, hrest⟩

theorem sound_step (h : A.Sound s) (c : Cache.Caller) : A.Sound (A.step s c) := by
  unfold step
  split
  · exact sound_stepRun h
  · next hc => exact h.frame (Cache.State.call_step_other hc)

omit [DecidableEq Obj] in
theorem sound_initial (A : BaselineAlgorithm Obj Val V R) : A.Sound A.initial :=
  ⟨rfl, rfl, .idle, rfl, rfl⟩

/-- The cache moves as it does without the coroutine of `run`. -/
theorem cache_step (h : A.Sound s) (c : Cache.Caller) :
    (A.step s c).cache = s.cache.step A.inputs c := by
  unfold step
  split
  · next hc =>
    subst hc
    unfold Sound at h
    have hidle {st : Cache.CallState Val} (hcall : s.cache.calls[0]? = some (A.resolveCall st))
        (hended : st.ended = true) : s.cache.step A.inputs (.call 0) = s.cache :=
      Cache.State.stepCall_of_ended hcall hended
    unfold stepRun
    cases hphase : s.phase with
    | resolving =>
      dsimp only
      split
      · exact cache_begin _ _
      · rfl
      · rfl
    | running args left =>
      rw [hphase] at h
      rw [hidle h.2.1 rfl]
      cases left <;> rfl
    | ended outcome =>
      rw [hphase] at h
      rcases h with ⟨e, hcall, -⟩ | ⟨hcall, -⟩
      · rw [hidle hcall rfl]
      · rw [hidle hcall rfl]
  · rfl

theorem sound_exec (A : BaselineAlgorithm Obj Val V R) (σ : List Cache.Caller) :
    A.Sound (A.exec σ) :=
  run_invariant (I := A.Sound) (fun _ c h => sound_step h c) (sound_initial A) σ

theorem cache_exec (A : BaselineAlgorithm Obj Val V R) (σ : List Cache.Caller) :
    (A.exec σ).cache = Cache.exec A.inputs A.calls σ := by
  induction σ using List.reverseRecOn with
  | nil => rfl
  | append_singleton σ c ih =>
    have hrun : A.exec (σ ++ [c]) = A.step (A.exec σ) c := run_append _ _ _
    have hcache : Cache.exec A.inputs A.calls (σ ++ [c]) =
        (Cache.exec A.inputs A.calls σ).step A.inputs c := run_append _ _ _
    rw [hrun, hcache, cache_step (sound_exec A σ), ih]

omit [DecidableEq Obj] in
/-- `_run` is called with the run's arguments and what its call of `resolve` has returned. -/
theorem Sound.of_invoked (h : A.Sound s) {args : RunArgs V} (hargs : args ∈ s.invoked) :
    s.cache.calls[0]? = some (A.resolveCall (.returned s.inputs)) ∧
      measuredArgs (A.toArgs A.kwargs) (A.toArgs s.inputs) = .ok args := by
  unfold Sound at h
  cases hphase : s.phase with
  | resolving =>
    rw [hphase] at h
    rw [h.1] at hargs
    cases hargs
  | running args' left =>
    rw [hphase] at h
    obtain ⟨hinvoked, hcall, hmeasured⟩ := h
    rw [hinvoked] at hargs
    obtain rfl := List.mem_singleton.mp hargs
    exact ⟨hcall, hmeasured⟩
  | ended outcome =>
    rw [hphase] at h
    rcases h with ⟨e, -, -, hinvoked, -⟩ |
      ⟨hcall, ⟨e, -, hinvoked, -⟩ | ⟨args', hmeasured, hinvoked, -⟩⟩
    · rw [hinvoked] at hargs
      cases hargs
    · rw [hinvoked] at hargs
      cases hargs
    · rw [hinvoked] at hargs
      obtain rfl := List.mem_singleton.mp hargs
      exact ⟨hcall, hmeasured⟩

/-- In every interleaving and for all outcomes of the hooks, `_run` is called at most once, with the
run's arguments and the results of a `resolve` that has returned with all inputs cached.  The run
ends with the outcome of this call; or `_run` is not called, and it ends with the exception of
`resolve`, or that of an input that is named as an argument of the run. -/
theorem core_run_called_once (A : BaselineAlgorithm Obj Val V R) (σ : List Cache.Caller) :
    (A.exec σ).invoked.length ≤ 1 ∧
      (∀ args ∈ (A.exec σ).invoked,
        (A.exec σ).cache.calls[0]? = some (A.resolveCall (.returned (A.exec σ).inputs)) ∧
          measuredArgs (A.toArgs A.kwargs) (A.toArgs (A.exec σ).inputs) = .ok args ∧
          ∀ x ∈ A.inputProcessors, (A.exec σ).cache.cache.contains x = true) ∧
      ∀ outcome, (A.exec σ).phase = .ended outcome →
        (∃ args, (A.exec σ).invoked = [args] ∧ outcome = (A.coreRun args).outcome) ∨
          (A.exec σ).invoked = [] ∧ ∃ e, outcome = .error e ∧
            ((A.exec σ).cache.calls[0]? = some (A.resolveCall (.raised e)) ∨
              measuredArgs (A.toArgs A.kwargs) (A.toArgs (A.exec σ).inputs) = .error e) := by
  have hsound := sound_exec A σ
  rw [and_left_comm]
  refine ⟨fun args hmem => ?_, ?_⟩
  · obtain ⟨hcall, hargs⟩ := hsound.of_invoked hmem
    refine ⟨hcall, hargs, ?_⟩
    rw [cache_exec] at hcall ⊢
    exact Cache.returnedCached_exec A.inputs A.calls σ 0 _ _ hcall rfl
  unfold Sound at hsound
  generalize A.exec σ = s at hsound ⊢
  cases hphase : s.phase with
  | resolving =>
    rw [hphase] at hsound
    rw [hsound.1]
    exact ⟨by simp, fun outcome h => by cases h⟩
  | running args left =>
    rw [hphase] at hsound
    rw [hsound.1]
    exact ⟨le_rfl, fun outcome h => by cases h⟩
  | ended outcome =>
    rw [hphase] at hsound
    rcases hsound with ⟨e, hcall, -, hinvoked, rfl⟩ |
      ⟨-, ⟨e, hargs, hinvoked, rfl⟩ | ⟨args, -, hinvoked, rfl⟩⟩
    · rw [hinvoked]
      refine ⟨by simp, fun outcome h => .inr ⟨rfl, e, ?_, .inl hcall⟩⟩
      exact (RunPhase.ended.inj h).symm
    · rw [hinvoked]
      refine ⟨by simp, fun outcome h => .inr ⟨rfl, e, ?_, .inr hargs⟩⟩
      exact (RunPhase.ended.inj h).symm
    · rw [hinvoked]
      refine ⟨le_rfl, fun outcome h => .inl ⟨args, rfl, ?_⟩⟩
      exact (RunPhase.ended.inj h).symm

/-! ### Settled inputs -/

/-- A call that does not exist is not made. -/
theorem calls_exec_of_none {P : Cache.Inputs Obj Val} {calls : List (List Obj × Cache.Kwargs Val)}
    {i : Nat} (h : calls[i]? = none) (σ : List Cache.Caller) :
    (Cache.exec P calls σ).calls[i]? = none := by
  have hstep (s : Cache.State Obj Val) (c : Cache.Caller) (hs : s.calls[i]? = none) :
      (s.step P c).calls[i]? = none := by
    by_cases hc : c = .call i
    · subst hc
      have hidle : s.step P (.call i) = s := by
        show s.stepCall P i = s
        simp only [Cache.State.stepCall, hs]
      rw [hidle]
      exact hs
    · exact (Cache.State.call_step_other hc).trans hs
  refine run_invariant hstep ?_ σ
  simpa [Cache.initial] using h

/-- From the call of `_run` on, no input is evaluated any more, in particular not after the stores
were closed; all that the tasks of the inputs still do is to close their contexts.  Assumed: the
cache resolves for this run only, and no call of `resolve` has raised or listed an unscheduled
object twice. -/
theorem inputs_settled_before_core_run (A : BaselineAlgorithm Obj Val V R) (hothers : A.others = [])
    (σ τ : List Cache.Caller)
    (hone : Along (Cache.State.step A.inputs)
      (fun s c => (s.toSchedule (s.requested A.inputs c)).Nodup) (Cache.initial A.calls) σ)
    (hraised : ∀ c e, .raised c e ∉ (A.exec σ).cache.history) (hrun : (A.exec σ).invoked ≠ []) :
    (∀ task ∈ (A.exec (σ ++ τ)).cache.tasks, task.stage.processed = true) ∧
      (A.exec (σ ++ τ)).cache.history = (A.exec σ).cache.history := by
  obtain ⟨args, hargs⟩ := List.exists_mem_of_ne_nil _ hrun
  have hcall := ((sound_exec A σ).of_invoked hargs).1
  rw [cache_exec] at hraised hcall ⊢
  rw [cache_exec]
  have hquiet : Cache.Quiescent (Cache.exec A.inputs A.calls σ) := by
    refine Cache.quiescent_exec hone ⟨fun i call hi => ?_, hraised⟩
    cases i with
    | zero =>
      rw [hcall] at hi
      obtain rfl := Option.some.inj hi
      rfl
    | succ i =>
      have hnone : A.calls[i + 1]? = none := by simp [calls, hothers]
      rw [calls_exec_of_none hnone] at hi
      cases hi
  obtain ⟨hkeep, hhistory⟩ := hquiet.run (P := A.inputs) τ
  rw [Cache.exec, run_append]
  exact ⟨fun _ htask => hkeep.processed htask, hhistory⟩

/-- Counts its arguments. -/
def chainAlgorithm : BaselineAlgorithm Bool String Unit Nat where
  inputs := Cache.readerChain
  inputProcessors := [true, false]
  kwargs := .ofList [("request_id", some "run")]
  asArg v := v.elim (.object ()) .text
  coreRun args := ⟨1, .ok args.items.length⟩
  others := []

theorem inputs_settled_before_core_run_chainAlgorithm :
    (∀ task ∈ (chainAlgorithm.exec (Cache.chainResolved ++ [.task 0])).cache.tasks,
        task.stage.processed = true) ∧
      (chainAlgorithm.exec (Cache.chainResolved ++ [.task 0])).cache.history =
        (chainAlgorithm.exec Cache.chainResolved).cache.history := by
  refine inputs_settled_before_core_run chainAlgorithm rfl Cache.chainResolved [.task 0]
    ⟨by decide, by decide, by decide, by decide, by decide, by decide, by decide, by decide,
      by decide, trivial⟩ (fun c e hmem => ?_) (by decide +kernel)
  have hall : (chainAlgorithm.exec Cache.chainResolved).cache.history.all
      (fun
        | .raised _ _ => false
        | _ => true) = true := by decide +kernel
  cases List.all_eq_true.mp hall _ hmem

/-! ### Refinement of the sequential run -/

/-- The run on inputs that are known: `_run` is called with them. -/
def sequentialRun (A : BaselineAlgorithm Obj Val V R) (inputs : Cache.Kwargs Val) :
    Except PyExc R := do
  let args ← measuredArgs (A.toArgs A.kwargs) (A.toArgs inputs)
  (A.coreRun args).outcome

section Refinement

variable {value : Obj → Option Val}

theorem cache_stateAt (A : BaselineAlgorithm Obj Val V R) (σ : ℕ → Cache.Caller) (n : ℕ) :
    A.Sound (stateAt A.step A.initial σ n) ∧
      (stateAt A.step A.initial σ n).cache =
        stateAt (Cache.State.step A.inputs) (Cache.initial A.calls) σ n := by
  induction n with
  | zero => exact ⟨sound_initial A, rfl⟩
  | succ n ih => exact ⟨sound_step ih.1 (σ n), (cache_step ih.1 (σ n)).trans (by rw [ih.2]; rfl)⟩

theorem phase_step_other (hc : c ≠ .call 0) : (A.step s c).phase = s.phase := by
  rw [step, if_neg hc]

/-- A step of the coroutine past its call of `resolve`. -/
theorem left_stepRun (hphase : s.phase ≠ .resolving) :
    (A.stepRun s).phase ≠ .resolving ∧ (A.stepRun s).phase.left ≤ s.phase.left ∧
      ((∃ outcome, (A.stepRun s).phase = .ended outcome) ∨
        (A.stepRun s).phase.left < s.phase.left) := by
  unfold stepRun
  cases h : s.phase with
  | resolving => exact absurd h hphase
  | running args left =>
    cases left with
    | zero => exact ⟨by simp, by simp [RunPhase.left], .inl ⟨_, rfl⟩⟩
    | succ n => exact ⟨by simp, by simp [RunPhase.left], .inr (by simp [RunPhase.left])⟩
  | ended outcome => exact ⟨by simp [h], by simp [h], .inl ⟨outcome, h⟩⟩

/-- Once `resolve` has returned, the coroutine of `run` comes to its end. -/
theorem eventually_ended (A : BaselineAlgorithm Obj Val V R) {σ : ℕ → Cache.Caller}
    (hfair : Fair σ) {n : ℕ} (hn : (stateAt A.step A.initial σ n).phase ≠ .resolving) :
    Eventually A.step A.initial σ n fun s => ∃ outcome, s.phase = .ended outcome := by
  refine Eventually.of_measure (I := fun s : State Obj Val V R => s.phase ≠ .resolving)
    (M := fun _ c => c = .call 0) (fun s => s.phase.left) (fun s c hs => ?_) (fun s c hs _ => ?_)
    (fun s c hc hs _ => ?_) (fun k _ => ?_) hn
  · by_cases hc : c = .call 0
    · rw [step, if_pos hc]
      exact (left_stepRun hs).1
    · rwa [phase_step_other hc]
  · by_cases hc : c = .call 0
    · rw [step, if_pos hc]
      exact (left_stepRun hs).2.1
    · rw [phase_step_other hc]
  · rw [step, if_pos hc]
    exact (left_stepRun hs).2.2
  · obtain ⟨m, hm, hσ⟩ := hfair (.call 0) k
    exact ⟨m, hm, .inl hσ⟩

/-- Without failing hooks, the call of `resolve` can only return the values of the inputs. -/
theorem inputs_eq (h : A.Sound s) (hcache : Cache.Sound A.inputs value A.kwargs s.cache)
    (hphase : s.phase ≠ .resolving) :
    s.inputs = Cache.named A.inputs value A.inputProcessors ∧
      (∀ args ∈ s.invoked, measuredArgs (A.toArgs A.kwargs)
        (A.toArgs (Cache.named A.inputs value A.inputProcessors)) = .ok args) ∧
      ∀ outcome, s.phase = .ended outcome →
        outcome = A.sequentialRun (Cache.named A.inputs value A.inputProcessors) := by
  have hreturned {st : Cache.CallState Val} (hcall : s.cache.calls[0]? = some (A.resolveCall st))
      (hended : st.ended = true) :
      st = .returned (Cache.named A.inputs value A.inputProcessors) := by
    have hcall' : s.cache.calls[0]? = some { A.resolveCall .idle with state := st } := hcall
    exact Cache.Sound.returned hcache hcall' hended
  unfold Sound at h
  cases hp : s.phase with
  | resolving => exact absurd hp hphase
  | running args left =>
    rw [hp] at h
    obtain ⟨hinvoked, hcall, hargs⟩ := h
    have hinputs := Cache.CallState.returned.inj (hreturned hcall rfl)
    rw [hinputs] at hargs
    refine ⟨hinputs, fun args' hmem => ?_, fun outcome h => by cases h⟩
    rw [hinvoked] at hmem
    rw [List.mem_singleton.mp hmem, hargs]
  | ended outcome =>
    rw [hp] at h
    rcases h with ⟨e, hcall, -⟩ | ⟨hcall, hrest⟩
    · cases hreturned hcall rfl
    · have hinputs := Cache.CallState.returned.inj (hreturned hcall rfl)
      rw [hinputs] at hrest
      refine ⟨hinputs, fun args' hmem => ?_, fun outcome' h => ?_⟩
      · rcases hrest with ⟨e, -, hinvoked, -⟩ | ⟨args, hargs, hinvoked, -⟩
        · simp [hinvoked] at hmem
        · rw [hinvoked] at hmem
          rw [List.mem_singleton.mp hmem, hargs]
      · obtain rfl := RunPhase.ended.inj h
        rcases hrest with ⟨e, hargs, -, rfl⟩ | ⟨args, hargs, -, rfl⟩
        · rw [sequentialRun, hargs]
          rfl
        · rw [sequentialRun, hargs]
          rfl

end Refinement

/-- The run refines its sequential meaning: for an acyclic input graph without failing hooks, `_run`
is called with nothing but the values of the inputs and ends the run with nothing but the outcome of
that call, and under a fair schedule the run ends. -/
theorem run_refines_sequential_run (A : BaselineAlgorithm Obj Val V R)
    (f : Obj → Cache.Kwargs Val → Option Val) (hP : Cache.Functional A.inputs f)
    (hac : Acyclic A.inputs.readers) (hothers : ∀ call ∈ A.others, call.2 = A.kwargs) :
    let values := Cache.named A.inputs (Cache.inputValue A.inputs f A.kwargs hac) A.inputProcessors
    (∀ σ, (∀ args ∈ (A.exec σ).invoked,
        measuredArgs (A.toArgs A.kwargs) (A.toArgs values) = .ok args) ∧
      ∀ outcome, (A.exec σ).phase = .ended outcome →
        outcome = A.sequentialRun values ∧ (A.exec σ).inputs = values) ∧
    ∀ σ : ℕ → Cache.Caller, Fair σ → Eventually A.step A.initial σ 0 fun s =>
      s.phase = .ended (A.sequentialRun values) ∧ s.inputs = values := by
  intro values
  have hcalls : ∀ call ∈ A.calls, call.2 = A.kwargs := by
    simpa [calls] using hothers
  have hvalue (x : Obj) : Cache.inputValue A.inputs f A.kwargs hac x =
      f x (A.kwargs.merge (Cache.named A.inputs (Cache.inputValue A.inputs f A.kwargs hac)
        (A.inputs.readers x))) :=
    Cache.inputValue_eq hac x
  constructor
  · intro σ
    have hcache := Cache.sound_exec A.inputs f A.kwargs hP hac hcalls σ
    rw [← cache_exec A σ] at hcache
    have hsound := sound_exec A σ
    by_cases hphase : (A.exec σ).phase = .resolving
    · unfold Sound at hsound
      rw [hphase] at hsound
      rw [hsound.1, hphase]
      exact ⟨by simp, fun outcome h => by cases h⟩
    · obtain ⟨hinputs, hargs, hended⟩ := inputs_eq hsound hcache hphase
      exact ⟨hargs, fun outcome h => ⟨hended outcome h, hinputs⟩⟩
  · intro σ hfair
    have hsound₀ := Cache.sound_exec A.inputs f A.kwargs hP hac hcalls []
    have hcache (n : ℕ) : Cache.Sound A.inputs
        (Cache.inputValue A.inputs f A.kwargs hac) A.kwargs (stateAt A.step A.initial σ n).cache := by
      rw [(cache_stateAt A σ n).2]
      exact stateAt_invariant (fun s c h => h.step hP hvalue) hsound₀ n
    have hcall₀ : (Cache.initial A.calls).calls[0]? = some (A.resolveCall .idle) := rfl
    have hreturned := Cache.eventually_returned hP hvalue hfair hac hsound₀
      (Cache.Progressing.initial A.inputs A.calls) hcall₀
    obtain ⟨m, hm, hcall⟩ := hreturned
    have hphase : (stateAt A.step A.initial σ m).phase ≠ .resolving := by
      intro hphase
      obtain ⟨hsound, hsame⟩ := cache_stateAt A σ m
      unfold Sound at hsound
      rw [hphase] at hsound
      obtain ⟨-, -, st, hst, hopen⟩ := hsound
      rw [hsame] at hst
      obtain rfl := congrArg Cache.Call.state (Option.some.inj (hcall.symm.trans hst))
      cases hopen
    obtain ⟨k, hk, outcome, hended⟩ := eventually_ended A hfair hphase
    obtain ⟨hinputs, -, houtcome⟩ := inputs_eq (cache_stateAt A σ k).1 (hcache k)
      (by rw [hended]; simp)
    exact ⟨k, hm.trans hk, by rw [hended, houtcome outcome hended], hinputs⟩

theorem run_refines_sequential_run_chainAlgorithm :
    let values := Cache.named Cache.readerChain
      (Cache.inputValue Cache.readerChain (fun x _ => some (toString x)) chainAlgorithm.kwargs
        (.of_rank (fun x => if x then 1 else 0) (by decide))) [true, false]
    (∀ σ, (∀ args ∈ (chainAlgorithm.exec σ).invoked,
        measuredArgs (chainAlgorithm.toArgs chainAlgorithm.kwargs) (chainAlgorithm.toArgs values) =
          .ok args) ∧
      ∀ outcome, (chainAlgorithm.exec σ).phase = .ended outcome →
        outcome = chainAlgorithm.sequentialRun values ∧ (chainAlgorithm.exec σ).inputs = values) ∧
    ∀ σ : ℕ → Cache.Caller, Fair σ →
      Eventually chainAlgorithm.step chainAlgorithm.initial σ 0 fun s =>
        s.phase = .ended (chainAlgorithm.sequentialRun values) ∧ s.inputs = values :=
  run_refines_sequential_run chainAlgorithm (fun x _ => some (toString x))
    ⟨fun _ _ => rfl, fun _ _ _ => rfl, fun _ _ => rfl⟩ _ (by simp [chainAlgorithm])

end BaselineAlgorithm

end NexusSdk.Algorithms
