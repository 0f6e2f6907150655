import NexusSdk.Cache.Once
import NexusSdk.Cache.Origins
import NexusSdk.Core.Activate

/-! How the exceptions of the hooks reach `activate`.  Under the shipped error map each `resolve`
turns an exception into one of the two caching errors; which one is decided where the exception
meets the first `resolve`, and no further nesting changes it.  If several hooks raise in a run,
`activate` sees what became of one of the exceptions. -/

namespace NexusSdk.Cache

open Lib NexusSdk.Core

/-- Whether the shipped map makes a transient error of the exception. -/
def keepsTransient (e : PyExc) : Bool :=
  !e.isInstance fatalCachingError &&
    (e.isInstance transientCachingError || transientCassandraErrors.any e.isInstance)

/-- An exception that ends its task as failed: not as cancelled, and without stopping the loop. -/
def ordinary (e : PyExc) : Bool := !e.isCancelled && !leavesLoop e

theorem mapException_of_ne_nil (t : PyClass) (errors : List PyClass) (h : errors ≠ []) (e : PyExc) :
    (NexusErrorMap.mk (some t) errors).mapException e =
      if errors.any e.isInstance then some t else none := by
  rw [NexusErrorMap.mapException, if_neg (fun hlen => h (List.length_eq_zero_iff.mp hlen))]

theorem resolveExcType_shipped (e : PyExc) :
    resolveExcType shippedErrorMap e =
      if keepsTransient e then transientCachingError else fatalCachingError := by
  have hentries : shippedErrorMap.errorMap.get? inputCacheFqn =
      some [⟨some transientCachingError, transientCassandraErrors⟩,
        ⟨some fatalCachingError, fatalCassandraErrors⟩, ⟨some fatalCachingError, []⟩] := rfl
  have hfirst := mapException_of_ne_nil transientCachingError transientCassandraErrors (by decide) e
  have hsecond := mapException_of_ne_nil fatalCachingError fatalCassandraErrors (by decide) e
  have hrest : (NexusErrorMap.mk (some fatalCachingError) []).mapException e =
      some fatalCachingError := rfl
  unfold resolveExcType keepsTransient
  cases hfatal : e.isInstance fatalCachingError with
  | true => rfl
  | false =>
  cases htransient : e.isInstance transientCachingError with
  | true => rfl
  | false =>
  simp only [Bool.false_eq_true, if_false, NexusErrorMapCollection.mapError, hentries,
    Bool.not_false, Bool.true_and, Bool.false_or, List.findSome?_cons, hfirst, hsecond,
    hrest]
  cases transientCassandraErrors.any e.isInstance with
  | true => rfl
  | false => cases fatalCassandraErrors.any e.isInstance <;> rfl

variable {Obj Val : Type} {P : Inputs Obj Val} {origin e r : PyExc}

theorem failure_shipped (hmap : P.errorMap = shippedErrorMap) (x : Obj)
    (he : e.isCancelled = false) :
    State.failure P x e = .raisedFrom
      (if keepsTransient e then transientCachingError else fatalCachingError) (P.cacheKey x) e := by
  have hone (transient : Bool) : (if transient then transientCachingError
      else fatalCachingError).takesOneArgument = true := by cases transient <;> rfl
  have hleaves (transient : Bool) (key : String) :
      (PyExc.raisedFrom (if transient then transientCachingError else fatalCachingError) key
        e).leavingCoroutine =
        .raisedFrom (if transient then transientCachingError else fatalCachingError) key e :=
    PyExc.replaceStopIteration_of_not (by cases transient <;> rfl)
  simp only [State.failure, he, Bool.false_eq_true, if_false, hmap, resolveExcType_shipped, hone,
    if_true, hleaves]

theorem keepsTransient_failure (hmap : P.errorMap = shippedErrorMap) (x : Obj)
    (he : e.isCancelled = false) :
    keepsTransient (State.failure P x e) = keepsTransient e ∧
      (State.failure P x e).isCancelled = false := by
  rw [failure_shipped hmap x he]
  have hcls (cls : PyClass) (key : String) :
      keepsTransient (.raisedFrom cls key e) = keepsTransient (.raised cls key) ∧
        (PyExc.raisedFrom cls key e).isCancelled = cls.isSubclass cancelledError := ⟨rfl, rfl⟩
  rw [(hcls _ _).1, (hcls _ _).2]
  cases keepsTransient e with
  | true => exact ⟨by rfl, by rfl⟩
  | false => exact ⟨by rfl, by rfl⟩

/-- What the cache makes of an exception is classified as that is. -/
theorem Stems.keepsTransient_eq (hmap : P.errorMap = shippedErrorMap)
    (ho : origin.isCancelled = false) (h : Stems P origin e) :
    keepsTransient e = keepsTransient origin ∧ e.isCancelled = false := by
  induction h with
  | hook => exact ⟨rfl, ho⟩
  | during pending => exact ⟨rfl, ho⟩
  | failure x _ ih =>
    obtain ⟨hkeeps, hcancelled⟩ := keepsTransient_failure hmap x ih.2
    exact ⟨hkeeps.trans ih.1, hcancelled⟩
  | renewed _ hcancelled ih =>
    rw [ih.2] at hcancelled
    cases hcancelled

theorem runAlgorithm_of_transient {env : Stages} (hrun : env.run = .error r)
    (htask : r.isCancelled = false ∧ leavesLoop r = false ∧ r.truthy = true)
    (htransient : isTransientException (some r) = some true) :
    runAlgorithm env = .raise (.raised (sysExit 1)) := by
  obtain ⟨hcancelled, hleaves, htruthy⟩ := htask
  simp [runAlgorithm, hrun, taskException, hleaves, hcancelled, taskResult, htruthy, submitResult,
    htransient, stage, Except.mapError, Traced.raise]

/-- `activate` takes the exception `r` for what the exception `origin` of a hook was. -/
structure ClassKept (origin r : PyExc) : Prop where
  transient : origin.isInstance transientNexusError = true →
    isTransientException (some r) = some true ∧
      ∀ env : Stages, env.run = .error r → runAlgorithm env = .raise (.raised (sysExit 1))
  fatal : origin.isInstance fatalNexusError = true → isTransientException (some r) = some false

/-- `activate` takes `origin` for what it is when it sees what became of `other`. -/
structure KeptBeside (origin other : PyExc) : Prop where
  transient : origin.isInstance transientNexusError = true → keepsTransient other = true
  fatal : origin.isInstance fatalNexusError = true → keepsTransient other = false

theorem Stems.isTransientException_eq (hmap : P.errorMap = shippedErrorMap)
    (ho : origin.isCancelled = false) (h : Stems P origin e) (x : Obj) :
    isTransientException (some (State.failure P x e)) = some (keepsTransient origin) := by
  obtain ⟨hkeeps, hcancelled⟩ := h.keepsTransient_eq hmap ho
  rw [failure_shipped hmap x hcancelled, hkeeps]
  cases keepsTransient origin <;> rfl

/-- The class that `activate` sees is the one that the map assigns to the exception from which `r`
stems. -/
theorem classKept_failure_iff {other : PyExc} (hmap : P.errorMap = shippedErrorMap)
    (ho : other.isCancelled = false) (h : Stems P other e) (x : Obj) :
    ClassKept origin (State.failure P x e) ↔ KeptBeside origin other := by
  have hclass := h.isTransientException_eq hmap ho x
  constructor
  · intro hkept
    refine ⟨fun htransient => ?_, fun hfatal => ?_⟩
    · exact Option.some.inj (hclass.symm.trans (hkept.transient htransient).1)
    · exact Option.some.inj (hclass.symm.trans (hkept.fatal hfatal))
  · intro hkept
    refine ⟨fun hinst => ?_, fun hinst => hclass.trans (congrArg some (hkept.fatal hinst))⟩
    have hkeeps := hclass.trans (congrArg some (hkept.transient hinst))
    refine ⟨hkeeps, fun env hrun => runAlgorithm_of_transient hrun ?_ hkeeps⟩
    rw [failure_shipped hmap x (h.keepsTransient_eq hmap ho).2]
    cases keepsTransient e <;> exact ⟨rfl, rfl, rfl⟩

/-- In a run whose hooks raise only exceptions that end their tasks as failed, every exception that
a `resolve` call raises is classified as one of them is; if each of them is kept beside each, the
class of every one of them is kept, whichever `activate` sees. -/
theorem hook_classes_kept [DecidableEq Obj] (P : Inputs Obj Val)
    (hmap : P.errorMap = shippedErrorMap) (calls : List (List Obj × Kwargs Val)) (σ : List Caller)
    (hordinary : ∀ t origin, HookRaised P (exec P calls σ) t origin → ordinary origin = true) :
    (∀ c r, .raised c r ∈ (exec P calls σ).history → ∃ t other,
      HookRaised P (exec P calls σ) t other ∧
        ∀ origin, ClassKept origin r ↔ KeptBeside origin other) ∧
      ((∀ t origin, HookRaised P (exec P calls σ) t origin →
          ∀ t' other, HookRaised P (exec P calls σ) t' other → KeptBeside origin other) →
        ∀ t origin, HookRaised P (exec P calls σ) t origin →
          ∀ c r, .raised c r ∈ (exec P calls σ).history → ClassKept origin r) := by
  have hseen (c : Caller) (r : PyExc) (h : .raised c r ∈ (exec P calls σ).history) : ∃ t other,
      HookRaised P (exec P calls σ) t other ∧
        ∀ origin, ClassKept origin r ↔ KeptBeside origin other := by
    have hroots := rootsKept_exec P calls σ
    obtain ⟨t, x, e, hdone, hr⟩ := hroots.raised c r h
    obtain ⟨t', -, other, -, -, hraised, hstems⟩ := hroots.rooted_done hdone
    have ho : other.isCancelled = false := by
      have hother := hordinary t' other hraised
      rw [ordinary, Bool.and_eq_true, Bool.not_eq_true'] at hother
      exact hother.1
    rcases hr with rfl | ⟨hcancelled, -⟩
    · exact ⟨t', other, hraised, fun _ => classKept_failure_iff hmap ho hstems x⟩
    · rw [(hstems.keepsTransient_eq hmap ho).2] at hcancelled
      cases hcancelled
  refine ⟨hseen, fun hkept t origin hraised c r h => ?_⟩
  obtain ⟨t', other, hother, hclass⟩ := hseen c r h
  exact (hclass origin).mpr (hkept t origin hraised t' other hother)

/-- The input `true` reads the input `false`, which raises `e`. -/
def failingChain (e : PyExc) : Inputs Bool String :=
  { readerChain with evaluate := fun _ _ _ => ⟨0, .error e⟩ }

/-- All hooks of the chain raise the same exception. -/
theorem failingChain_hookRaised {s : State Bool String} {t : Nat}
    (h : HookRaised (failingChain e) s t origin) : origin = e := by
  cases h with
  | opening _ _ h => cases h
  | evaluating _ _ _ h => exact (Except.error.inj h).symm
  | closing _ _ _ h => cases h

/-- A transient caching error of the inner reader reaches the caller of the outer one. -/
theorem hook_classes_kept_failingChain :
    let origin := PyExc.raised transientCachingError "orders"
    let s := exec (failingChain origin) [([true], .empty)]
      [.call 0, .task 0, .task 1, .task 0, .call 0]
    (∀ c r, .raised c r ∈ s.history → ∃ t other, HookRaised (failingChain origin) s t other ∧
        ∀ origin, ClassKept origin r ↔ KeptBeside origin other) ∧
      ∀ t origin', HookRaised (failingChain origin) s t origin' →
        ∀ c r, .raised c r ∈ s.history → ClassKept origin' r := by
  have hkept := hook_classes_kept (failingChain (.raised transientCachingError "orders")) rfl
    [([true], .empty)] [.call 0, .task 0, .task 1, .task 0, .call 0]
    fun t origin h => by
      rw [failingChain_hookRaised h]
      decide
  refine ⟨hkept.1, hkept.2 fun t origin h t' other h' => ?_⟩
  rw [failingChain_hookRaised h, failingChain_hookRaised h']
  exact ⟨fun _ => by decide, fun hfatal => absurd hfatal (by decide)⟩

/-- The transient error of a reader, which initiates a retry, is made fatal by the last entry of
the shipped map. -/
theorem hook_class_lost_for_transientInputReaderError :
    let origin := PyExc.raised transientInputReaderError "orders"
    let P := failingChain origin
    let s := exec P [([true], .empty)] [.call 0, .task 0, .task 1, .task 0, .call 0]
    let r := PyExc.raisedFrom fatalCachingError "true"
      (.raisedFrom fatalCachingError "false" origin)
    .raised (.call 0) r ∈ s.history ∧ HookRaised P s 1 origin ∧
      origin.isInstance transientNexusError = true ∧
        isTransientException (some r) = some false := by
  refine ⟨List.mem_of_getLast? rfl, ?_, by decide, rfl⟩
  have hevaluate : .evaluate 1 false .empty ∈ (exec (failingChain (.raised transientInputReaderError
      "orders")) [([true], .empty)] [.call 0, .task 0, .task 1, .task 0, .call 0]).history :=
    List.mem_of_getElem? (i := 4) rfl
  exact .evaluating rfl hevaluate (List.mem_of_getElem? (i := 5) rfl) rfl

end NexusSdk.Cache
