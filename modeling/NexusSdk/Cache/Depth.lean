import NexusSdk.Cache.Errors
import NexusSdk.Core.Activate

/-! The class of the exception that a failed chain of dependents raises.  Every `resolve` on the way
maps the exception again, so the class depends on the depth unless the mapping keeps the class that
it assigned first. -/

namespace NexusSdk.Cache

open Lib

/-- A task that ends with an exception of the class stops the event loop. -/
def stopsLoop (cls : PyClass) : Bool :=
  !cls.isSubclass cancelledError && (cls.isSubclass systemExit || cls.isSubclass keyboardInterrupt)

/-- Exceptions of the class leave `resolve` as they are constructed. -/
def Raisable (cls : PyClass) : Prop :=
  cls.takesOneArgument = true ∧ cls.isSubclass stopIteration = false

/-- The class of what `resolve` raises for an exception to which the class `target` is assigned. -/
def raisedClass (target : PyClass) : PyClass :=
  if target.takesOneArgument then
    if target.isSubclass stopIteration then runtimeError else target
  else typeError

/-- The class of what `resolve` raises for the exception `e` of a task. -/
def mappedClass (c : NexusErrorMapCollection) (e : PyExc) : PyClass :=
  if e.isCancelled then e.cls else raisedClass (resolveExcType c e)

/-- What every `resolve` makes of an exception of the class has the class again.  In the place of a
target without a constructor of one argument a `TypeError` is raised, and a `RuntimeError` in the
place of a `StopIteration`. -/
def KeepsClass (c : NexusErrorMapCollection) (cls : PyClass) : Prop :=
  cls = cancelledError ∨ cls.isSubclass cancelledError = false ∧
    (cls = fatalCachingError ∨ cls = transientCachingError ∨
      cls.isSubclass fatalCachingError = false ∧ cls.isSubclass transientCachingError = false ∧
        raisedClass (c.mapError (.raised cls "") inputCacheFqn) = cls)

/-- The exception stops the loop, or is a `CancelledError` with this very class assigned to it, or
is mapped to a class that can be raised and is kept or stops the loop. -/
def Stable (c : NexusErrorMapCollection) (e : PyExc) : Prop :=
  stopsLoop e.cls = true ∨
    e.cls = cancelledError ∧ resolveExcType c e = cancelledError ∨
    e.isCancelled = false ∧ Raisable (resolveExcType c e) ∧
      (stopsLoop (resolveExcType c e) = true ∨ KeepsClass c (resolveExcType c e))

variable {Obj Val : Type}

/-- Chains of dependents of any length above the input `bottom`, whose hook raises `e`. -/
structure FailingChain (P : Inputs Obj Val) (bottom : Obj) (e : PyExc) : Prop where
  contextOpen : ∀ t x, P.contextOpen t x = ⟨0, .ok ()⟩
  contextClose : ∀ t x, P.contextClose t x = ⟨0, .ok ()⟩
  fails : ∀ t kwargs, (P.evaluate t bottom kwargs).outcome = .error e
  noReaders : P.readers bottom = []
  dependent : ∀ x, x ≠ bottom → ∃ y, P.readers x = [y]
  succeeds : ∀ t x kwargs, x ≠ bottom → ∃ v, (P.evaluate t x kwargs).outcome = .ok v

/-- The event loop has not been stopped by a task. -/
def LoopRuns (s : State Obj Val) : Prop := EndedIn (fun e => stopsLoop e.cls = false) s

/-- In every run of a chain that fails with `e`, the top-level `resolve` calls raise exceptions of
the class that is assigned to `e`. -/
def DepthIndependent (c : NexusErrorMapCollection) (e : PyExc) : Prop :=
  ∀ (Obj Val : Type) [DecidableEq Obj] (P : Inputs Obj Val) (bottom : Obj), P.errorMap = c →
    FailingChain P bottom e → ∀ (calls : List (List Obj × Kwargs Val)) (σ : List Caller),
      Along (State.step P) (fun s _ => LoopRuns s) (initial calls) σ →
        ∀ i r, .raised (.call i) r ∈ (exec P calls σ).history → r.cls = resolveExcType c e

/-! ### The mapping of classes -/

variable {c : NexusErrorMapCollection} {e e' : PyExc}

theorem isInstance_congr (h : e.cls = e'.cls) : e.isInstance = e'.isInstance := by
  funext cls
  exact congrArg (fun d : PyClass => d.isSubclass cls) h

/-- The mapping reads the class of the exception only. -/
theorem resolveExcType_congr (h : e.cls = e'.cls) : resolveExcType c e = resolveExcType c e' := by
  unfold resolveExcType NexusErrorMapCollection.mapError NexusErrorMap.mapException
  rw [isInstance_congr h]

theorem mappedClass_congr (h : e.cls = e'.cls) : mappedClass c e = mappedClass c e' := by
  unfold mappedClass PyExc.isCancelled
  rw [isInstance_congr h, resolveExcType_congr h, h]

theorem cls_failure (P : Inputs Obj Val) (x : Obj) (e : PyExc) :
    (State.failure P x e).cls = mappedClass P.errorMap e := by
  unfold State.failure mappedClass raisedClass
  split
  · rfl
  · dsimp only
    split
    · unfold PyExc.leavingCoroutine PyExc.replaceStopIteration
      split
      · next hstop => exact (if_pos hstop).symm
      · next hstop => exact (if_neg hstop).symm
    · rfl

theorem raisedClass_of_raisable {cls : PyClass} (h : Raisable cls) : raisedClass cls = cls := by
  rw [raisedClass, if_pos h.1, h.2]
  rfl

/-- A class that is raised as it is assigned can be raised. -/
theorem raisable_of_raisedClass {cls : PyClass} (h : raisedClass cls = cls) : Raisable cls := by
  unfold raisedClass at h
  split at h
  · next hone =>
    split at h
    · next hstop =>
      rw [← h] at hstop
      exact absurd hstop (by decide)
    · next hstop => exact ⟨hone, Bool.eq_false_of_not_eq_true hstop⟩
  · next hone =>
    rw [← h] at hone
    exact absurd rfl hone

/-- The class is kept exactly if mapping its instances gives it, and no later waiter raises a new
`CancelledError` in the place of one of them. -/
theorem mappedClass_raised_iff {cls : PyClass} (a : String) :
    mappedClass c (.raised cls a) = cls ∧ (cls.isSubclass cancelledError = true →
      cls = cancelledError) ↔ KeepsClass c cls := by
  have hcls : mappedClass c (.raised cls a) = mappedClass c (.raised cls "") := mappedClass_congr rfl
  rw [hcls, mappedClass, KeepsClass]
  cases hcancelled : cls.isSubclass cancelledError with
  | true => simp [PyExc.isCancelled, PyExc.isInstance, hcancelled]
  | false =>
  have hlive : (PyExc.raised cls "").isCancelled = false := hcancelled
  have hother : cls ≠ cancelledError := by
    rintro rfl
    simp at hcancelled
  simp only [hlive, Bool.false_eq_true, if_false, false_implies, and_true, hother, false_or,
    true_and]
  have hfatalOne : raisedClass fatalCachingError = fatalCachingError := rfl
  have htransientOne : raisedClass transientCachingError = transientCachingError := rfl
  cases hfatal : cls.isSubclass fatalCachingError with
  | true =>
    have hresolve : resolveExcType c (.raised cls "") = fatalCachingError := if_pos hfatal
    rw [hresolve, hfatalOne]
    refine ⟨fun h => .inl h.symm, ?_⟩
    rintro (h | rfl | ⟨h, -⟩)
    · exact h.symm
    · exact absurd hfatal (by decide)
    · cases h
  | false =>
  have hne : cls ≠ fatalCachingError := by
    rintro rfl
    simp at hfatal
  have hnotFatal : (PyExc.raised cls "").isInstance fatalCachingError = false := hfatal
  cases htransient : cls.isSubclass transientCachingError with
  | true =>
    have hresolve : resolveExcType c (.raised cls "") = transientCachingError := by
      rw [resolveExcType, hnotFatal]
      exact if_pos htransient
    rw [hresolve, htransientOne]
    refine ⟨fun h => .inr (.inl h.symm), ?_⟩
    rintro (h | h | ⟨-, h, -⟩)
    · exact absurd h hne
    · exact h.symm
    · cases h
  | false =>
    have hne' : cls ≠ transientCachingError := by
      rintro rfl
      simp at htransient
    have hresolve : resolveExcType c (.raised cls "") =
        c.mapError (.raised cls "") inputCacheFqn := by
      have hnotTransient : (PyExc.raised cls "").isInstance transientCachingError = false :=
        htransient
      rw [resolveExcType, hnotFatal, hnotTransient]
      rfl
    simp only [hresolve, hne, hne', false_or, true_and]

/-! ### Runs of a chain -/

theorem FailingChain.hookExceptions_eq {P : Inputs Obj Val} {bottom : Obj}
    (h : FailingChain P bottom e) {e' : PyExc} (he' : e' ∈ hookExceptions P) : e' = e := by
  obtain ⟨t, x, hopen | ⟨kwargs, heval⟩ | hclose⟩ := he'
  · rw [h.contextOpen] at hopen
    cases hopen
  · by_cases hx : x = bottom
    · subst hx
      rw [h.fails] at heval
      exact (Except.error.inj heval).symm
    · obtain ⟨v, hv⟩ := h.succeeds t x kwargs hx
      rw [hv] at heval
      cases heval
  · rw [h.contextClose] at hclose
    cases hclose

/-- The exceptions of a stable chain have the class of `e` or the class that is assigned to it, and
of each that does not stop the loop the latter is made. -/
theorem Stable.mappedClass_eq (h : Stable c e) (hstays : stopsLoop e.cls = false)
    (he' : e'.cls = e.cls ∨ e'.cls = resolveExcType c e) (hstays' : stopsLoop e'.cls = false) :
    mappedClass c e' = resolveExcType c e := by
  rcases h with h | ⟨hcls, hassigned⟩ | ⟨hlive, hone, hkeeps⟩
  · rw [hstays] at h
    cases h
  · have hcls' : e'.cls = cancelledError :=
      he'.elim (fun h => h.trans hcls) fun h => h.trans hassigned
    have hcancelled : e'.isCancelled = true := by
      rw [PyExc.isCancelled, PyExc.isInstance, hcls']
      exact PyClass.isSubclass_self _
    rw [mappedClass, if_pos hcancelled, hcls', hassigned]
  · rcases he' with hcls' | hcls'
    · rw [mappedClass_congr hcls', mappedClass, hlive]
      exact raisedClass_of_raisable hone
    · rw [← hcls'] at hkeeps ⊢
      have hkeeps : KeepsClass c e'.cls := hkeeps.resolve_left (by simp [hstays'])
      have hraised : mappedClass c e' = mappedClass c (.raised e'.cls "") := mappedClass_congr rfl
      rw [hraised]
      exact ((mappedClass_raised_iff "").mpr hkeeps).1

/-- A cancelled task of a stable chain was cancelled by a `CancelledError` of this very class, which
is the one that is assigned to `e`. -/
theorem Stable.assigned_eq (h : Stable c e) (hstays : stopsLoop e.cls = false)
    (he' : e'.cls = e.cls ∨ e'.cls = resolveExcType c e) (hstays' : stopsLoop e'.cls = false)
    (hcancelled : e'.isCancelled = true) : resolveExcType c e = cancelledError := by
  rcases h with h | ⟨-, hassigned⟩ | ⟨hlive, -, hkeeps⟩
  · rw [hstays] at h
    cases h
  · exact hassigned
  · rcases he' with hcls' | hcls'
    · have hsame : e'.isCancelled = e.isCancelled := congrArg (·.isSubclass cancelledError) hcls'
      rw [hsame, hlive] at hcancelled
      cases hcancelled
    · rw [← hcls'] at hkeeps ⊢
      have hkeeps : KeepsClass c e'.cls := hkeeps.resolve_left (by simp [hstays'])
      exact ((mappedClass_raised_iff "").mpr hkeeps).2 hcancelled

theorem Stable.cls_failure_eq {P : Inputs Obj Val} (hmap : P.errorMap = c) (h : Stable c e)
    (x : Obj) (he' : e'.cls = e.cls ∨ stopsLoop e.cls = false ∧ e'.cls = resolveExcType c e)
    (hstays' : stopsLoop e'.cls = false) :
    stopsLoop e.cls = false ∧ (State.failure P x e').cls = resolveExcType c e := by
  have hstays : stopsLoop e.cls = false := by
    rcases he' with hcls | ⟨hstays, -⟩
    · rw [← hcls, hstays']
    · exact hstays
  rw [cls_failure, hmap]
  exact ⟨hstays, h.mappedClass_eq hstays (he'.imp_right And.right) hstays'⟩

/-- The exceptions of the tasks are the hook's or have the class that is assigned to it. -/
theorem FailingChain.inherited {P : Inputs Obj Val} {bottom : Obj} (hmap : P.errorMap = c)
    (h : FailingChain P bottom e) (hstable : Stable c e) :
    InheritedWhile P (fun e' => stopsLoop e'.cls = false)
      (fun e' => e'.cls = e.cls ∨ stopsLoop e.cls = false ∧ e'.cls = resolveExcType c e) where
  hooks _ he' := .inl (congrArg PyExc.cls (h.hookExceptions_eq he'))
  failure x _ he' hstays' := .inr (hstable.cls_failure_eq hmap x he' hstays')
  renewed e' he' hstays' hcancelled := by
    have hstays := (hstable.cls_failure_eq hmap bottom he' hstays').1
    refine ⟨.inr ⟨hstays, ?_⟩, rfl⟩
    exact (hstable.assigned_eq hstays (he'.imp_right And.right) hstays' hcancelled).symm
  during _ _ he' := he'

theorem depthIndependent_of_stable (hstable : Stable c e) : DepthIndependent c e := by
  intro Obj Val _ P bottom hmap hchain calls σ hσ i r hr
  obtain ⟨x, e', he', hstays', rfl⟩ :=
    (errorsWhile_exec (hchain.inherited hmap hstable) calls hσ).raised _ _ hr
  exact (hstable.cls_failure_eq hmap x he' hstays').2

/-- The input `true` reads the input `false`, whose hook raises `e`. -/
def twoLevels (c : NexusErrorMapCollection) (e : PyExc) : Inputs Bool Unit where
  cacheKey x := toString x
  classAlias x := toString x
  readers x := if x then [false] else []
  contextOpen _ _ := ⟨0, .ok ()⟩
  evaluate _ x _ := ⟨0, if x then .ok none else .error e⟩
  contextClose _ _ := ⟨0, .ok ()⟩
  errorMap := c

theorem failingChain_twoLevels (c : NexusErrorMapCollection) (e : PyExc) :
    FailingChain (twoLevels c e) false e where
  contextOpen _ _ := rfl
  contextClose _ _ := rfl
  fails _ _ := rfl
  noReaders := rfl
  dependent x hx := ⟨false, by simp [twoLevels, hx]⟩
  succeeds t x kwargs hx := ⟨none, by simp [twoLevels, hx]⟩

/-- The input `true` awaits its reader, whose task is created. -/
def resolvingState : State Bool Unit where
  cache := .empty
  scheduled := (Dict.empty.set true 0).set false 1
  totalExecuted := 1
  tasks := [⟨true, .empty, .resolving 0⟩, ⟨false, .empty, .created⟩]
  data _ := none
  calls := [⟨[true], .empty, .polling 0⟩, ⟨[true], .empty, .idle⟩]
  history := [.resolve (.call 0) [true], .resolve (.task 0) [false]]

/-- The task of the reader is done with `e`. -/
def failedState (e : PyExc) : State Bool Unit :=
  { resolvingState with
    cache := Dict.empty.set false none
    totalExecuted := 2
    tasks := [⟨true, .empty, .resolving 0⟩, ⟨false, .empty, .done (.error e)⟩]
    history := resolvingState.history ++ [.resolve (.task 1) [], .returned (.task 1) [] .empty,
      .evaluate 1 false .empty, .processed 1 false (.error e)] }

/-- The task of the input `true` is done with `e'`. -/
def mappedState (e e' : PyExc) : State Bool Unit :=
  { failedState e with
    cache := (Dict.empty.set false none).set true none
    tasks := [⟨true, .empty, .done (.error e')⟩, ⟨false, .empty, .done (.error e)⟩]
    handedOut := [1]
    history := (failedState e).history ++
      [.raised (.task 0) e', .processed 0 true (.error e')] }

/-- Two calls of `resolve(true)`, of which the first is made at once. -/
def twoCalls : List (List Bool × Kwargs Unit) := [([true], .empty), ([true], .empty)]

section Levels

variable (c : NexusErrorMapCollection) (e e' : PyExc)

theorem exec_resolvingState :
    exec (twoLevels c e) twoCalls [.call 0, .task 0] = resolvingState := rfl

theorem exec_failedState :
    exec (twoLevels c e) twoCalls ([.call 0, .task 0] ++ [.task 1]) = failedState e := by
  rw [exec, run_append, ← exec, exec_resolvingState]
  rfl

theorem step_failedState :
    State.step (twoLevels c e) (failedState e) (.task 0) =
      mappedState e (State.failure (twoLevels c e) false e) := rfl

/-- The first call raises for the reader, the second finds a cancelled task without its
exception. -/
theorem raised_failedState :
    let s := run (State.step (twoLevels c e)) (failedState e) [.call 0, .call 1]
    .raised (.call 0) (State.failure (twoLevels c e) false e) ∈ s.history ∧
      .raised (.call 1) (State.failure (twoLevels c e) false
        (if e.isCancelled then .newCancelled else e)) ∈ s.history :=
  ⟨List.mem_of_getElem? (i := 6) rfl, List.mem_of_getElem? (i := 8) rfl⟩

theorem raised_mappedState :
    let s := run (State.step (twoLevels c e)) (mappedState e e') [.call 0, .call 1]
    .raised (.call 0) (State.failure (twoLevels c e) true e') ∈ s.history ∧
      .raised (.call 1) (State.failure (twoLevels c e) true
        (if e'.isCancelled then .newCancelled else e')) ∈ s.history :=
  ⟨List.mem_of_getElem? (i := 8) rfl, List.mem_of_getElem? (i := 10) rfl⟩

end Levels

theorem loopRuns_of_stages {s : State Obj Val} {l : List (Stage Val)}
    (hs : s.tasks.map Task.stage = l)
    (hl : ∀ e, .done (.error e) ∈ l → stopsLoop e.cls = false) : LoopRuns s := by
  intro t e he
  refine hl e ?_
  rw [← hs]
  obtain ⟨task, htask, hstage⟩ := Option.map_eq_some_iff.mp he
  exact List.mem_map.mpr ⟨task, List.mem_of_getElem? htask, hstage⟩

/-- While the loop runs, calls of `resolve` raise what they assign to `e`. -/
theorem DepthIndependent.cls_eq (h : DepthIndependent c e) {before : List Caller}
    {s : State Bool Unit} (hs : exec (twoLevels c e) twoCalls before = s)
    (hbefore : Along (State.step (twoLevels c e)) (fun s _ => LoopRuns s) (initial twoCalls) before)
    (hruns : LoopRuns s) {i : Nat} {r : PyExc}
    (hr : .raised (.call i) r ∈
      (run (State.step (twoLevels c e)) s [.call 0, .call 1]).history) :
    r.cls = resolveExcType c e := by
  subst hs
  have hcalls : Along (State.step (twoLevels c e)) (fun s _ => LoopRuns s)
      (run (State.step (twoLevels c e)) (initial twoCalls) before) [.call 0, .call 1] :=
    ⟨hruns, endedIn_stepCall (t := 0) hruns, trivial⟩
  refine h Bool Unit (twoLevels c e) false rfl (failingChain_twoLevels c e) twoCalls
    (before ++ [.call 0, .call 1]) (hbefore.append hcalls) i r ?_
  rw [exec, run_append]
  exact hr

theorem along_failedState : Along (State.step (twoLevels c e)) (fun s _ => LoopRuns s)
    (initial twoCalls) ([.call 0, .task 0] ++ [.task 1]) := by
  refine ⟨loopRuns_of_stages (l := []) rfl (by simp),
    loopRuns_of_stages (l := [.created]) rfl (by simp),
    (?_ : LoopRuns (exec (twoLevels c e) twoCalls [.call 0, .task 0])), trivial⟩
  rw [exec_resolvingState]
  exact loopRuns_of_stages (l := [.resolving 0, .created]) rfl (by simp)

theorem loopRuns_failedState (hstays : stopsLoop e.cls = false) : LoopRuns (failedState e) :=
  loopRuns_of_stages (l := [.resolving 0, .done (.error e)]) rfl (by simpa using hstays)

theorem loopRuns_mappedState (hstays : stopsLoop e.cls = false) (hstays' : stopsLoop e'.cls = false) :
    LoopRuns (mappedState e e') := by
  refine loopRuns_of_stages (l := [.done (.error e'), .done (.error e)]) rfl fun e'' he'' => ?_
  simp only [List.mem_cons, Stage.done.injEq, Except.error.injEq, List.not_mem_nil, or_false] at he''
  rcases he'' with rfl | rfl
  · exact hstays'
  · exact hstays

/-- What two waiters raise for the failing input itself. -/
theorem DepthIndependent.firstLevel (h : DepthIndependent c e) (hstays : stopsLoop e.cls = false) :
    mappedClass c e = resolveExcType c e ∧
      (e.isCancelled = true → resolveExcType c e = cancelledError) := by
  have hcls {i : Nat} {r : PyExc} := h.cls_eq (exec_failedState c e) (along_failedState (c := c))
    (loopRuns_failedState hstays) (i := i) (r := r)
  obtain ⟨hfirst, hagain⟩ := raised_failedState c e
  have hmapped := hcls hfirst
  rw [cls_failure] at hmapped
  refine ⟨hmapped, fun hcancelled => ?_⟩
  rw [if_pos hcancelled] at hagain
  exact (hcls hagain).symm

/-- What two waiters raise one level above. -/
theorem DepthIndependent.secondLevel (h : DepthIndependent c e) (hstays : stopsLoop e.cls = false)
    (hstays' : stopsLoop (mappedClass c e) = false) :
    let e' := State.failure (twoLevels c e) false e
    mappedClass c e' = resolveExcType c e ∧
      (e'.isCancelled = true → resolveExcType c e = cancelledError) := by
  intro e'
  have hfailure : stopsLoop e'.cls = false := by
    rw [cls_failure]
    exact hstays'
  have hexec : exec (twoLevels c e) twoCalls ([.call 0, .task 0] ++ [.task 1] ++ [.task 0]) =
      mappedState e e' := by
    rw [exec, run_append, ← exec, exec_failedState, run_cons, step_failedState, run_nil]
  have hbefore : Along (State.step (twoLevels c e)) (fun s _ => LoopRuns s) (initial twoCalls)
      ([.call 0, .task 0] ++ [.task 1] ++ [.task 0]) := by
    refine along_failedState.append ⟨?_, trivial⟩
    rw [← exec, exec_failedState]
    exact loopRuns_failedState hstays
  have hcls {i : Nat} {r : PyExc} := h.cls_eq hexec hbefore (loopRuns_mappedState hstays hfailure)
    (i := i) (r := r)
  obtain ⟨hfirst, hagain⟩ := raised_mappedState c e e'
  have hmapped := hcls hfirst
  rw [cls_failure] at hmapped
  refine ⟨hmapped, fun hcancelled => ?_⟩
  rw [if_pos hcancelled] at hagain
  exact (hcls hagain).symm

theorem stable_of_depthIndependent (h : DepthIndependent c e) : Stable c e := by
  cases hstays : stopsLoop e.cls with
  | true => exact .inl hstays
  | false =>
  obtain ⟨hfirst, hagain⟩ := h.firstLevel hstays
  cases hcancelled : e.isCancelled with
  | true =>
    rw [mappedClass, if_pos hcancelled] at hfirst
    exact .inr (.inl ⟨hfirst.trans (hagain hcancelled), hagain hcancelled⟩)
  | false =>
  have hraisable : Raisable (resolveExcType c e) := by
    rw [mappedClass, hcancelled] at hfirst
    exact raisable_of_raisedClass hfirst
  refine .inr (.inr ⟨hcancelled, hraisable, ?_⟩)
  cases hmapped : stopsLoop (resolveExcType c e) with
  | true => exact .inl rfl
  | false =>
    obtain ⟨hsecond, hlater⟩ := h.secondLevel hstays (hfirst ▸ hmapped)
    have hcls : (State.failure (twoLevels c e) false e).cls = resolveExcType c e :=
      (cls_failure (twoLevels c e) false e).trans hfirst
    have hclass : (State.failure (twoLevels c e) false e).cls =
        (PyExc.raised (resolveExcType c e) "").cls := hcls
    rw [mappedClass_congr hclass] at hsecond
    refine .inr ((mappedClass_raised_iff "").mp ⟨hsecond, fun hsub => hlater ?_⟩)
    rw [PyExc.isCancelled, PyExc.isInstance, hcls]
    exact hsub

/-- A retryable error of the application. -/
def ordersNotReady : PyClass := .extend "OrdersNotReady" [transientNexusError]

/-- Value errors are retried, and everything else is fatal. -/
def retryOrders : NexusErrorMapCollection where
  globalDefault := fatalNexusError
  errorMap := .ofList [(inputCacheFqn,
    [⟨some ordersNotReady, [valueError]⟩, ⟨some fatalCachingError, []⟩])]

end NexusSdk.Cache
