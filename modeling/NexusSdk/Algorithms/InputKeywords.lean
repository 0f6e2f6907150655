import NexusSdk.Algorithms.Baseline
import NexusSdk.Cache.Alias

/-! The keywords of the inputs.  What `resolve` returns is handed on as keyword arguments: `process`
merges it into the keywords of its own call, while `run` passes it beside its arguments and beside
those that the decorator of `_measured_run` takes, and a keyword must not be given twice. -/

namespace NexusSdk.Algorithms

open Lib

/-- The keywords that the decorator of `_measured_run` takes. -/
def decoratorKeywords : List String := ["metric_tags", "metrics_provider", "logger"]

theorem passArgs_eq_ok {V : Type} {names : List String} {args : RunArgs V} :
    passArgs names args = .ok () ↔ ∀ name ∈ names, args.contains name = false := by
  unfold passArgs
  cases hfind : names.find? args.contains with
  | none => simpa using List.find?_eq_none.mp hfind
  | some name =>
    refine iff_of_false (by simp) fun h => ?_
    have hcontains := List.find?_some hfind
    rw [h name (List.mem_of_find?_eq_some hfind)] at hcontains
    cases hcontains

theorem contains_merge {V : Type} (d e : RunArgs V) (key : String) :
    (d.merge e).contains key = true ↔ d.contains key = true ∨ e.contains key = true := by
  have hkeys (d : RunArgs V) : d.contains key = true ↔ key ∈ d.items.map Prod.fst := by
    rw [Dict.contains_iff, List.mem_map]
    refine ⟨fun ⟨v, hv⟩ => ⟨(key, v), Dict.mem_items_iff.mpr hv, rfl⟩, ?_⟩
    rintro ⟨⟨_, v⟩, hmem, rfl⟩
    exact ⟨v, Dict.mem_items_iff.mp hmem⟩
  rw [hkeys, hkeys, hkeys]
  exact Dict.mem_keys_update

/-- `_measured_run` is called exactly if no result has the name of an argument of the run, and
nothing has the name of an argument of the decorator. -/
theorem measuredArgs_eq_ok {V : Type} {kwargs results args : RunArgs V} :
    measuredArgs kwargs results = .ok args ↔
      (∀ name, results.contains name = true → kwargs.contains name = false) ∧
        (∀ name ∈ decoratorKeywords,
          kwargs.contains name = false ∧ results.contains name = false) ∧
        kwargs.merge results = args := by
  have hresults : (∀ name ∈ results.items.map Prod.fst, kwargs.contains name = false) ↔
      ∀ name, results.contains name = true → kwargs.contains name = false := by
    refine ⟨fun h name hname => ?_, fun h name hname => ?_⟩
    · obtain ⟨v, hv⟩ := Dict.contains_iff.mp hname
      exact h name (List.mem_map.mpr ⟨(name, v), Dict.mem_items_iff.mpr hv, rfl⟩)
    · obtain ⟨⟨_, v⟩, hmem, rfl⟩ := List.mem_map.mp hname
      exact h _ (Dict.contains_of_get? (Dict.mem_items_iff.mp hmem))
  have hboth (name : String) : (kwargs.merge results).contains name = false ↔
      kwargs.contains name = false ∧ results.contains name = false := by
    rw [← Bool.not_eq_true, contains_merge, not_or, Bool.not_eq_true, Bool.not_eq_true]
  unfold measuredArgs
  rw [bind_eq_ok]
  constructor
  · rintro ⟨_, hfirst, hrest⟩
    obtain ⟨_, hsecond, hargs⟩ := bind_eq_ok.mp hrest
    refine ⟨hresults.mp (passArgs_eq_ok.mp hfirst), fun name hname => ?_, Except.ok.inj hargs⟩
    exact (hboth name).mp (passArgs_eq_ok.mp hsecond name hname)
  · rintro ⟨hfirst, hsecond, rfl⟩
    refine ⟨(), passArgs_eq_ok.mpr (hresults.mpr hfirst), bind_eq_ok.mpr ⟨(), ?_, rfl⟩⟩
    exact passArgs_eq_ok.mpr fun name hname => (hboth name).mpr (hsecond name hname)

namespace BaselineAlgorithm

variable {Obj Val V R : Type} {A : BaselineAlgorithm Obj Val V R}

theorem get?_toArgs (kwargs : Cache.Kwargs Val) (key : String) :
    (A.toArgs kwargs).get? key = (kwargs.get? key).map A.asArg := by
  have hkeys : (kwargs.items.map fun item => (item.1, A.asArg item.2)).map Prod.fst =
      kwargs.items.map Prod.fst := by
    rw [List.map_map]
    rfl
  cases hget : kwargs.get? key with
  | some v =>
    refine Dict.get?_update_of_mem (by rw [hkeys]; exact kwargs.nodup) ?_
    exact List.mem_map.mpr ⟨(key, v), Dict.mem_items_iff.mpr hget, rfl⟩
  | none =>
    refine Dict.get?_update_of_not_mem ?_
    rw [hkeys]
    intro hmem
    obtain ⟨⟨_, v⟩, hitem, rfl⟩ := List.mem_map.mp hmem
    rw [Dict.mem_items_iff.mp hitem] at hget
    cases hget

theorem contains_toArgs (kwargs : Cache.Kwargs Val) (key : String) :
    (A.toArgs kwargs).contains key = kwargs.contains key := by
  rw [Dict.contains, get?_toArgs, Option.isSome_map]
  rfl

/-- The algorithm, with the aliases of its inputs' classes. -/
def named (A : BaselineAlgorithm Obj Val V R) (text : Cache.Stringcase)
    (className : Obj → String) : BaselineAlgorithm Obj Val V R :=
  { A with inputs := A.inputs.named text className }

variable [DecidableEq Obj]

/-- What the `resolve` of `c` returns in the step of `c` from `s` has one entry for each of its
inputs.  If a task has called it, the entries reach the hook of its object under their keywords, and
if `run` has called it, `_run` is called with the data of each input under its own keyword. -/
structure DeliversEach (A : BaselineAlgorithm Obj Val V R) (s : State Obj Val V R)
    (c : Cache.Caller) (args : List Obj) (result : Cache.Kwargs Val) : Prop where
  entries : Cache.State.OneEntryEach A.inputs s.cache args result
  hook : Cache.State.Reaches result c (s.cache.newEvents A.inputs c)
  coreRun : c = .call 0 → ∃ runArgs, (A.step s c).invoked = [runArgs] ∧
    ∀ x ∈ args, runArgs.get? (A.inputs.classAlias x) = some (A.asArg (s.cache.data x))

/-- The classes of different inputs have different aliases; those of the inputs of `run` are no
keywords of its call, and neither these nor those are keywords of the decorator. -/
structure KeywordsFree (A : BaselineAlgorithm Obj Val V R) (c : Cache.Caller) (args : List Obj) :
    Prop where
  different : ∀ x ∈ args, ∀ y ∈ args, A.inputs.classAlias x = A.inputs.classAlias y → x = y
  notArgument : c = .call 0 → ∀ x ∈ args, A.kwargs.contains (A.inputs.classAlias x) = false
  notReserved : c = .call 0 → ∀ x ∈ args, A.inputs.classAlias x ∉ decoratorKeywords
  argumentsFree : c = .call 0 → ∀ name ∈ decoratorKeywords, A.kwargs.contains name = false

variable {s : State Obj Val V R} {result : Cache.Kwargs Val} {args : List Obj}

/-- While its call of `resolve` polls, `run` has not called `_run`. -/
theorem resolving_of_polls {cache : Cache.State Obj Val} {n : Nat} (h : A.Sound s)
    (hp : Cache.State.Polls A.inputs s.cache (.call 0) args cache n) :
    s.phase = .resolving ∧ s.invoked = [] := by
  have hopen {st : Cache.CallState Val} (hcall : s.cache.calls[0]? = some (A.resolveCall st)) :
      st.ended = false := by
    rcases (Cache.State.call_of_polls hcall hp).2 with hst | hst
    · exact congrArg Cache.CallState.ended hst
    · exact congrArg Cache.CallState.ended hst
  unfold Sound at h
  cases hphase : s.phase with
  | resolving =>
    rw [hphase] at h
    exact ⟨rfl, h.1⟩
  | running args left =>
    rw [hphase] at h
    cases hopen h.2.1
  | ended outcome =>
    rw [hphase] at h
    rcases h with ⟨e, hcall, -⟩ | ⟨hcall, -⟩
    · cases hopen hcall
    · cases hopen hcall

omit [DecidableEq Obj] in
theorem invoked_begin {runArgs : RunArgs V} (hinvoked : s.invoked = []) :
    (A.begin s result).invoked = [runArgs] ↔
      measuredArgs (A.toArgs A.kwargs) (A.toArgs result) = .ok runArgs := by
  unfold begin
  cases measuredArgs (A.toArgs A.kwargs) (A.toArgs result) with
  | error e => simp [hinvoked]
  | ok args => simp [hinvoked]

/-- In the step in which its `resolve` returns, `run` calls `_run` with what it can pass on. -/
theorem invoked_step {runArgs : RunArgs V} {c : Cache.Caller} (h : A.Sound s)
    (hreturns : .returned c args result ∈ s.cache.newEvents A.inputs (.call 0)) :
    (A.step s (.call 0)).invoked = [runArgs] ↔
      measuredArgs (A.toArgs A.kwargs) (A.toArgs result) = .ok runArgs := by
  obtain ⟨⟨args', cache, n, hp⟩, hstate⟩ := Cache.returned_of_newEvents hreturns
  obtain ⟨hphase, hinvoked⟩ := resolving_of_polls h hp
  have hstep : A.step s (.call 0) =
      A.begin { s with cache := s.cache.step A.inputs (.call 0) } result := by
    rw [step, if_pos rfl, stepRun, hphase]
    simp only [hstate]
  rw [hstep]
  exact invoked_begin hinvoked

omit [DecidableEq Obj] in
/-- A dictionary of the inputs' data has an entry for each of them if their aliases differ. -/
theorem oneEntryEach_iff (cache : Cache.State Obj Val) (hargs : args.Nodup) :
    Cache.State.OneEntryEach A.inputs cache args
        (.ofList (args.map fun x => (A.inputs.classAlias x, cache.data x))) ↔
      ∀ x ∈ args, ∀ y ∈ args, A.inputs.classAlias x = A.inputs.classAlias y → x = y := by
  have hkeys : (args.map fun x => (A.inputs.classAlias x, cache.data x)).map Prod.fst =
      args.map A.inputs.classAlias := by
    rw [List.map_map]
    rfl
  have hlength := Dict.length_ofList_iff
    (l := args.map fun x => (A.inputs.classAlias x, cache.data x))
  rw [hkeys, List.length_map] at hlength
  rw [← List.nodup_map_iff_inj_on hargs]
  refine ⟨fun h => hlength.mp h.entries, fun h => ⟨hlength.mpr h, fun x hx => ?_⟩⟩
  refine Dict.get?_update_of_mem (by rwa [hkeys]) ?_
  exact List.mem_map.mpr ⟨x, hx, rfl⟩

omit [DecidableEq Obj] in
/-- The keywords of the returned dictionary are the aliases of the inputs. -/
theorem contains_collected {cache : Cache.State Obj Val} {name : String}
    (h : (Dict.ofList (args.map fun x => (A.inputs.classAlias x, cache.data x))).contains name =
      true) : ∃ x ∈ args, A.inputs.classAlias x = name := by
  obtain ⟨v, hv⟩ := Dict.contains_iff.mp h
  have hitem := Dict.mem_of_mem_ofList (Dict.mem_items_iff.mpr hv)
  obtain ⟨x, hx, heq⟩ := List.mem_map.mp hitem
  exact ⟨x, hx, (Prod.mk.inj heq).1⟩

/-- Whatever a `resolve` call returns for different inputs, in any run of the algorithm, has one
entry for each of them, and each reaches the hook or `_run` under its own keyword, exactly if the
aliases of their classes differ and are free. -/
theorem inputs_delivered_iff (text : Cache.Stringcase) (className : Obj → String)
    (A : BaselineAlgorithm Obj Val V R) (σ : List Cache.Caller) (c : Cache.Caller)
    (args : List Obj) (result : Cache.Kwargs Val)
    (hreturns : .returned c args result ∈ ((A.named text className).exec σ).cache.newEvents
      (A.named text className).inputs c)
    (hargs : args.Nodup) :
    (A.named text className).DeliversEach ((A.named text className).exec σ) c args result ↔
      (A.named text className).KeywordsFree c args := by
  generalize A.named text className = A at hreturns ⊢
  have hsound := sound_exec A σ
  have hacc : Cache.Accounted A.inputs (A.exec σ).cache := by
    rw [cache_exec]
    exact Cache.accounted_exec _ _ σ
  generalize A.exec σ = s at hreturns hsound hacc ⊢
  obtain ⟨rfl, hhook⟩ := Cache.delivers_newEvents hacc c c args result hreturns
  constructor
  · intro h
    have hdifferent := (oneEntryEach_iff s.cache hargs).mp h.entries
    have hfree (hc : c = .call 0) : ∃ runArgs, measuredArgs (A.toArgs A.kwargs) (A.toArgs
        (.ofList (args.map fun x => (A.inputs.classAlias x, s.cache.data x)))) = .ok runArgs := by
      subst hc
      obtain ⟨runArgs, hinvoked, -⟩ := h.coreRun rfl
      exact ⟨runArgs, (invoked_step hsound hreturns).mp hinvoked⟩
    have hcontains {x : Obj} (hx : x ∈ args) : (A.toArgs (.ofList
        (args.map fun x => (A.inputs.classAlias x, s.cache.data x)))).contains
          (A.inputs.classAlias x) = true := by
      rw [contains_toArgs]
      exact Dict.contains_of_get? (h.entries.ownKeyword x hx)
    refine ⟨hdifferent, fun hc x hx => ?_, fun hc x hx hreserved => ?_, fun hc name hname => ?_⟩
    · obtain ⟨runArgs, hmeasured⟩ := hfree hc
      rw [← contains_toArgs (A := A)]
      exact (measuredArgs_eq_ok.mp hmeasured).1 _ (hcontains hx)
    · obtain ⟨runArgs, hmeasured⟩ := hfree hc
      have hnone := ((measuredArgs_eq_ok.mp hmeasured).2.1 _ hreserved).2
      rw [hcontains hx] at hnone
      cases hnone
    · obtain ⟨runArgs, hmeasured⟩ := hfree hc
      rw [← contains_toArgs (A := A)]
      exact ((measuredArgs_eq_ok.mp hmeasured).2.1 name hname).1
  · intro h
    have hentries := (oneEntryEach_iff s.cache hargs).mpr h.different
    refine ⟨hentries, hhook, fun hc => ?_⟩
    subst hc
    refine ⟨_, (invoked_step hsound hreturns).mpr (measuredArgs_eq_ok.mpr
      ⟨fun name hname => ?_, fun name hname => ⟨?_, ?_⟩, rfl⟩), fun x hx => ?_⟩
    · rw [contains_toArgs] at hname ⊢
      obtain ⟨x, hx, rfl⟩ := contains_collected hname
      exact h.notArgument rfl x hx
    · rw [contains_toArgs]
      exact h.argumentsFree rfl name hname
    · rw [contains_toArgs, ← Bool.not_eq_true]
      intro hmem
      obtain ⟨x, hx, rfl⟩ := contains_collected hmem
      exact h.notReserved rfl x hx hname
    · refine Dict.get?_merge_of_some ?_
      rw [get?_toArgs, hentries.ownKeyword x hx]
      rfl

/-- Resolves two inputs of the given aliases for the run with a request id. -/
def twoInputsAlgorithm (first second : String) : BaselineAlgorithm Bool String Unit Nat where
  inputs := Cache.twoInputs first second
  inputProcessors := [false, true]
  kwargs := .ofList [("request_id", some "run")]
  asArg v := v.elim (.object ()) .text
  coreRun args := ⟨1, .ok args.items.length⟩
  others := []

theorem inputs_delivered_iff_differentStems :
    let className : Bool → String := fun x => if x then "StockReader" else "OrdersReader"
    let A := (twoInputsAlgorithm "" "").named Cache.lettersCase className
    A.DeliversEach (A.exec Cache.bothCounted) (.call 0) [false, true]
      (.ofList [("orders", some "false"), ("stock", some "true")]) := by
  intro className A
  have hA : A = twoInputsAlgorithm "orders" "stock" :=
    congrArg (fun inputs => { twoInputsAlgorithm "" "" with inputs })
      (Cache.named_twoInputs (by decide +kernel) (by decide +kernel))
  have hreturns : .returned (.call 0) [false, true]
      (.ofList [("orders", some "false"), ("stock", some "true")]) ∈
        (A.exec Cache.bothCounted).cache.newEvents A.inputs (.call 0) := by
    rw [hA]
    exact List.mem_of_getLast? rfl
  have hfree : A.KeywordsFree (.call 0) [false, true] := by
    rw [hA]
    exact ⟨by decide, fun _ => by decide, fun _ => by decide, fun _ => by decide⟩
  exact (inputs_delivered_iff Cache.lettersCase className (twoInputsAlgorithm "" "")
    Cache.bothCounted (.call 0) [false, true] _ hreturns (by decide)).mpr hfree

end BaselineAlgorithm

end NexusSdk.Algorithms
