import NexusSdk.Cache.Classification
import NexusSdk.Core.Traceback

/-! What a failed `resolve` keeps of its root cause.  What stems from an exception that a hook
raised leads to it by its causes, since each nested `resolve` puts one more exception in front of
it; only the new exceptions that later waiters of a cancelled task raise lead to none. -/

namespace NexusSdk

open Lib

/-- The classes to which the map sends exceptions can be constructed from a cache key alone. -/
structure NexusErrorMapCollection.Constructible (c : NexusErrorMapCollection) : Prop where
  globalDefault : c.globalDefault.takesOneArgument = true
  target : ∀ caller entries, c.errorMap.get? caller = some entries → ∀ entry ∈ entries,
    ∀ cls, entry.target = some cls → cls.takesOneArgument = true

theorem takesOneArgument_mapError {c : NexusErrorMapCollection} (hc : c.Constructible) (e : PyExc)
    (caller : String) : (c.mapError e caller).takesOneArgument = true := by
  unfold NexusErrorMapCollection.mapError
  split
  · next entries hentries =>
    cases hfind : entries.findSome? fun entry => entry.mapException e with
    | none => exact hc.globalDefault
    | some cls =>
      obtain ⟨entry, hentry, hmap⟩ := List.exists_of_findSome?_eq_some hfind
      have htarget : entry.target = some cls := by
        unfold NexusErrorMap.mapException at hmap
        split at hmap
        · exact hmap
        · split at hmap
          · exact hmap
          · cases hmap
      exact hc.target caller entries hentries entry hentry cls htarget
  · exact hc.globalDefault

theorem takesOneArgument_resolveExcType {c : NexusErrorMapCollection} (hc : c.Constructible)
    (e : PyExc) : (resolveExcType c e).takesOneArgument = true := by
  unfold resolveExcType
  split
  · rfl
  · split
    · rfl
    · exact takesOneArgument_mapError hc e inputCacheFqn

/-- Every class of the shipped map takes the cache key. -/
theorem shippedErrorMap_constructible : shippedErrorMap.Constructible where
  globalDefault := rfl
  target caller entries hentries entry hentry cls htarget := by
    have hitem := Dict.mem_of_mem_ofList (Dict.mem_items_iff.mpr hentries)
    obtain ⟨-, rfl⟩ := Prod.mk.inj (List.mem_singleton.mp hitem)
    have htargets : cls ∈ [transientCachingError, fatalCachingError, fatalCachingError] :=
      List.mem_filterMap.mpr ⟨entry, hentry, htarget⟩
    simp only [List.mem_cons, List.not_mem_nil, or_false, or_self] at htargets
    rcases htargets with rfl | rfl <;> rfl

namespace Cache

open NexusSdk.Core

variable {Obj Val : Type} {P : Inputs Obj Val} {origin e : PyExc}

theorem leadsTo_leavingCoroutine (h : e.LeadsTo origin) : e.leavingCoroutine.LeadsTo origin := by
  unfold PyExc.leavingCoroutine PyExc.replaceStopIteration
  split
  · exact .cause _ _ h
  · exact h

/-- What `resolve` raises leads where the exception of the task does, if that does not cancel. -/
theorem leadsTo_failure (hmap : P.errorMap.Constructible) (x : Obj) (h : e.LeadsTo origin) :
    (State.failure P x e).LeadsTo origin := by
  unfold State.failure
  split
  · exact h
  · simp only [takesOneArgument_resolveExcType hmap e, if_true]
    exact leadsTo_leavingCoroutine (.cause _ _ h)

theorem Stems.leadsTo (hmap : P.errorMap.Constructible) (h : Stems P origin e) :
    e.LeadsTo origin ∨ e = .newCancelled := by
  induction h with
  | hook => exact .inl (.refl origin)
  | during pending => exact .inl (.during pending (.refl origin))
  | failure x _ ih =>
    rcases ih with hleads | rfl
    · exact .inl (leadsTo_failure hmap x hleads)
    · exact .inr rfl
  | renewed _ _ _ => exact .inr rfl

/-! ### The root cause -/

/-- Some task was cancelled, and `r` is the new `CancelledError` that its later waiters raise. -/
def RenewedForCancelled (s : State Obj Val) (r : PyExc) : Prop :=
  r = .newCancelled ∧ ∃ t e, s.stage? t = some (.done (.error e)) ∧ e.isCancelled = true

/-- `r` was raised for a task that is done with an exception and leads to what a hook of such a task
raised, which the details of every completion contain if the algorithm ends with `r`. -/
structure KeepsRoot (P : Inputs Obj Val) (s : State Obj Val) (stack str : PyExc → String)
    (r : PyExc) : Prop where
  raisedFor : RaisedFor P s r
  root : ∃ t e origin, s.stage? t = some (.done (.error e)) ∧ e.cls = origin.cls ∧
    HookRaised P s t origin ∧ r.LeadsTo origin ∧
    ∀ env : Stages, env.TaskRan → env.run = .error r →
      ∀ c ∈ completions (activate env).events, ∃ before after,
        (c.submitted str (formatException stack str)).errorDetails =
          some (before ++ printed stack str origin.bare ++ after)

theorem isCancelled_of_failure {x : Obj} (h : State.failure P x e = .newCancelled) :
    e.isCancelled = true := by
  unfold State.failure at h
  split at h
  · next hcancelled => exact hcancelled
  · dsimp only at h
    split at h
    · unfold PyExc.leavingCoroutine PyExc.replaceStopIteration at h
      split at h <;> cases h
    · have hcls : typeError = cancelledError := congrArg PyExc.cls h
      exact absurd hcls (by decide)

/-- A new `CancelledError` is raised for a cancelled task only. -/
theorem cancelled_of_raisedFor {s : State Obj Val} (h : RaisedFor P s .newCancelled) :
    ∃ t e, s.stage? t = some (.done (.error e)) ∧ e.isCancelled = true := by
  obtain ⟨t, x, e, hdone, hr | ⟨hcancelled, -⟩⟩ := h
  · exact ⟨t, e, hdone, isCancelled_of_failure hr.symm⟩
  · exact ⟨t, e, hdone, hcancelled⟩

/-- In every run, what a `resolve` call raises keeps its root cause, unless it is the new
`CancelledError` that a later waiter of a cancelled task raises. -/
theorem root_cause_kept [DecidableEq Obj] (P : Inputs Obj Val) (hmap : P.errorMap.Constructible)
    (stack str : PyExc → String) (calls : List (List Obj × Kwargs Val)) (σ : List Caller)
    (c : Caller) (r : PyExc) (h : .raised c r ∈ (exec P calls σ).history) :
    RenewedForCancelled (exec P calls σ) r ∨ KeepsRoot P (exec P calls σ) stack str r := by
  have hroots := rootsKept_exec P calls σ
  have hfor := hroots.raised c r h
  obtain ⟨t, e, origin, hdone, hcls, hraised, hstems⟩ := hroots.rooted_raised hfor
  rcases hstems.leadsTo hmap with hleads | rfl
  · refine .inr ⟨hfor, t, e, origin, hdone, hcls, hraised, hleads, ?_⟩
    intro env hran hrun c hc
    obtain ⟨before, after, htext⟩ := printed_in_formatException stack str hleads
    exact ⟨before, after, by rw [errorDetails_of_failed stack str hran hrun hc, htext]⟩
  · exact .inl ⟨rfl, cancelled_of_raisedFor hfor⟩

/-- Two levels above the hook that raises. -/
theorem root_cause_kept_failingChain :
    let P := failingChain (.raised valueError "orders")
    let s := exec P [([true], .empty)] [.call 0, .task 0, .task 1, .task 0, .call 0]
    let r := PyExc.raisedFrom fatalCachingError "true"
      (.raisedFrom fatalCachingError "false" (.raised valueError "orders"))
    RenewedForCancelled s r ∨ KeepsRoot P s (fun _ => "") PyExc.arg r :=
  root_cause_kept _ shippedErrorMap_constructible _ _ _ _ (.call 0) _ (List.mem_of_getLast? rfl)

/-- The second of two waiters raises a `CancelledError` that does not lead to the one of the hook,
which the first has raised. -/
theorem root_cause_lost_for_cancelledError :
    let P := failingChain (.raised cancelledError "stop")
    let s := exec P [([false], .empty), ([false], .empty)]
      [.call 0, .call 1, .task 0, .call 0, .call 1]
    P.errorMap.Constructible ∧ HookRaised P s 0 (.raised cancelledError "stop") ∧
      .raised (.call 1) .newCancelled ∈ s.history ∧
        ∀ t origin, HookRaised P s t origin → ¬ PyExc.newCancelled.LeadsTo origin := by
  refine ⟨shippedErrorMap_constructible, ?_, List.mem_of_getLast? rfl, fun t origin h hleads => ?_⟩
  · have hevaluate : .evaluate 0 false .empty ∈ (exec (failingChain (.raised cancelledError "stop"))
        [([false], .empty), ([false], .empty)]
        [.call 0, .call 1, .task 0, .call 0, .call 1]).history := List.mem_of_getElem? (i := 4) rfl
    exact .evaluating rfl hevaluate (List.mem_of_getElem? (i := 5) rfl) rfl
  · have horigin := failingChain_hookRaised h
    cases hleads
    exact absurd horigin (by decide)

end Cache

end NexusSdk
