import NexusSdk.Algorithms.GraphRefinement

/-! What the code of an algorithm has been answered and has returned when its remote algorithms are
spawned, and from there to the payloads that the processes of their runs bind. -/

namespace NexusSdk.Algorithms

open Lib Input

variable {Obj Val F C V α R D : Type}

/-! ### Answers of the cache -/

/-- A call of `resolve` with these arguments has ended so. -/
def Answered (cache : Cache.State Obj Val) (request : List Obj × Cache.Kwargs Val)
    (a : Except PyExc (Cache.Kwargs Val)) : Prop :=
  ∃ (i : Nat) (call : Cache.Call Obj Val), cache.calls[i]? = some call ∧ call.made = request ∧
    GraphRun.answer? cache i = some a

/-- Nothing that was answered is forgotten. -/
def Remembers (cache cache' : Cache.State Obj Val) : Prop :=
  ∀ request a, Answered cache request a → Answered cache' request a

theorem Remembers.trans {cache cache' cache'' : Cache.State Obj Val} (h : Remembers cache cache')
    (h' : Remembers cache' cache'') : Remembers cache cache'' :=
  fun request a ha => h' request a (h request a ha)

namespace GraphRun

section Answers

variable {P : Cache.Inputs Obj Val} {cache cache' : Cache.State Obj Val} {i : Nat}
  {call : Cache.Call Obj Val} {a : Except PyExc (Cache.Kwargs Val)}
  {request : List Obj × Cache.Kwargs Val}

/-- The answer of a call depends on nothing but the call. -/
theorem answer?_of_call {j : Nat} (hcall : cache.calls[i]? = some call)
    (hcall' : cache'.calls[j]? = some call) : answer? cache' j = answer? cache i := by
  rw [answer?, answer?, hcall, hcall']

theorem ended_of_answer? (hcall : cache.calls[i]? = some call) (ha : answer? cache i = some a) :
    call.state.ended = true := by
  rw [answer?, hcall] at ha
  obtain ⟨args, kwargs, state⟩ := call
  cases state with
  | idle => cases ha
  | polling n => cases ha
  | returned results => rfl
  | raised e => rfl

theorem remembers_append (calls : List (Cache.Call Obj Val)) :
    Remembers cache { cache with calls := cache.calls ++ calls } := by
  rintro request a ⟨i, call, hcall, hmade, ha⟩
  have hcall' : (cache.calls ++ calls)[i]? = some call := by
    rw [List.getElem?_append_left (List.getElem?_eq_some_iff.mp hcall).1, hcall]
  exact ⟨i, call, hcall', hmade, (answer?_of_call hcall hcall').trans ha⟩

theorem remembers_extend (before : List (Cache.Call Obj Val)) :
    Remembers cache (cache.extend before []) := by
  rintro request a ⟨i, call, hcall, hmade, ha⟩
  have hcall' : (cache.extend before []).calls[before.length + i]? = some call := by
    rw [Cache.State.getElem?_extend (List.getElem?_eq_some_iff.mp hcall).1, hcall]
  exact ⟨before.length + i, call, hcall', hmade, (answer?_of_call hcall hcall').trans ha⟩

variable [DecidableEq Obj]

theorem remembers_step (c : Cache.Caller) : Remembers cache (cache.step P c) := by
  rintro request a ⟨i, call, hcall, hmade, ha⟩
  have hcall' := Cache.State.call_step_ended (P := P) (c := c) hcall (ended_of_answer? hcall ha)
  exact ⟨i, call, hcall', hmade, (answer?_of_call hcall hcall').trans ha⟩

/-- The call that was made stays. -/
theorem exists_call_step (hcall : cache.calls[i]? = some call) (c : Cache.Caller) :
    ∃ call', (cache.step P c).calls[i]? = some call' ∧ call'.made = call.made := by
  have hmade := congrArg (·[i]?) (Cache.State.made_step (P := P) (s := cache) (c := c))
  rw [List.getElem?_map, List.getElem?_map, hcall] at hmade
  exact Option.map_eq_some_iff.mp hmade

/-- A request is a call from then on. -/
theorem Asks.exists_call {answer : Nat ⊕ Except PyExc (Cache.Kwargs Val)}
    (h : Asks P cache request (cache', answer)) :
    Remembers cache cache' ∧ ∃ call, cache'.calls[cache.calls.length]? = some call ∧
      call.made = request := by
  obtain rfl := h.cache_eq
  have hunmade : { cache with calls := cache.calls ++ [Cache.Call.unmade request] }.calls[
      cache.calls.length]? = some (Cache.Call.unmade request) := List.getElem?_concat_length
  obtain ⟨call, hcall, hmade⟩ :=
    exists_call_step (P := P) hunmade (.call cache.calls.length)
  exact ⟨(remembers_append _).trans (remembers_step _), call, hcall, hmade⟩

end Answers

/-! ### What the code returns -/

section Code

variable {A : Type} {code rest : AlgorithmCode Obj Val A} {cache cache' : Cache.State Obj Val}
  {request : List Obj × Cache.Kwargs Val} {a : Except PyExc (Cache.Kwargs Val)}

/-- Where the rest ends, from now on, the code does. -/
def Leads (code : AlgorithmCode Obj Val A) (cache : Cache.State Obj Val)
    (rest : AlgorithmCode Obj Val A) : Prop :=
  ∀ cache', Remembers cache cache' → ∀ outcome, rest.Produces (Answered cache') outcome →
    code.Produces (Answered cache') outcome

theorem Leads.mono (h : Leads code cache rest) (hcache : Remembers cache cache') :
    Leads code cache' rest :=
  fun cache'' hcache' => h cache'' (hcache.trans hcache')

theorem Leads.answered {rest : Except PyExc (Cache.Kwargs Val) → AlgorithmCode Obj Val A}
    (h : Leads code cache (.awaits request rest)) (ha : Answered cache request a) :
    Leads code cache (rest a) :=
  fun cache' hcache outcome hrest => h cache' hcache outcome (.awaits (hcache request a ha) hrest)

end Code

section Stops

variable [DecidableEq Obj] {P : Cache.Inputs Obj Val} {cache cache' : Cache.State Obj Val}
  {code : AlgorithmCode Obj Val (D × List (Fork Obj F C V α R))}
  {stop : Stop Obj Val F C V α R D}

/-- Where the code stops after the answers that it was given. -/
inductive StopsAt (code : AlgorithmCode Obj Val (D × List (Fork Obj F C V α R)))
    (cache : Cache.State Obj Val) : Stop Obj Val F C V α R D → Prop
  | ended {outcome : Except PyExc (D × List (Fork Obj F C V α R))}
      (h : code.Produces (Answered cache) outcome) : StopsAt code cache (.ended outcome)
  | suspended {rest : AlgorithmCode Obj Val (D × List (Fork Obj F C V α R))}
      (h : Leads code cache rest) : StopsAt code cache (.suspended rest)
  | awaiting {i : Nat} {call : Cache.Call Obj Val}
      {rest : Except PyExc (Cache.Kwargs Val) →
        AlgorithmCode Obj Val (D × List (Fork Obj F C V α R))}
      (hcall : cache.calls[i]? = some call) (h : Leads code cache (.awaits call.made rest)) :
      StopsAt code cache (.awaiting i rest)

theorem StopsAt.step (h : StopsAt code cache stop) (c : Cache.Caller) :
    StopsAt code (cache.step P c) stop := by
  cases h with
  | ended h => exact .ended (h.mono (remembers_step c))
  | suspended h => exact .suspended (h.mono (remembers_step c))
  | awaiting hcall h =>
    obtain ⟨call', hcall', hmade⟩ := exists_call_step (P := P) hcall c
    refine .awaiting hcall' ?_
    rw [hmade]
    exact h.mono (remembers_step c)

theorem Leads.goOn {rest : AlgorithmCode Obj Val (D × List (Fork Obj F C V α R))}
    (h : Leads code cache rest) :
    StopsAt code (rest.goOn (ask P) cache).1 (rest.goOn (ask P) cache).2 := by
  refine Coroutine.goOn_induction (I := fun rest cache => Leads code cache rest)
    (R := fun r => StopsAt code r.1 r.2)
    (fun outcome cache h => .ended (h cache (fun _ _ ha => ha) outcome (.ends outcome)))
    (fun rest cache h => .suspended ?_) (fun request rest cache cache' i h hask => ?_)
    (fun request rest cache cache' a h hask => ?_) h
  · exact fun cache' hcache outcome hrest => h cache' hcache outcome (.suspends hrest)
  · have hasks := asks_of_eq hask
    obtain ⟨hcache, call, hcall, hmade⟩ := hasks.exists_call
    cases hasks
    refine .awaiting hcall ?_
    rw [hmade]
    exact h.mono hcache
  · have hasks := asks_of_eq hask
    obtain ⟨hcache, call, hcall, hmade⟩ := hasks.exists_call
    refine (h.mono hcache).answered ⟨_, call, hcall, hmade, ?_⟩
    cases hasks with
    | answers _ ha => exact ha

theorem StopsAt.resume (h : StopsAt code cache stop) :
    StopsAt code (resume P cache stop).1 (resume P cache stop).2 := by
  cases h with
  | ended h => exact .ended h
  | suspended h => exact h.goOn
  | @awaiting i _ rest hcall h =>
    have hstep : StopsAt code (cache.step P (.call i)) (.awaiting i rest) :=
      (StopsAt.awaiting hcall h).step (.call i)
    unfold GraphRun.resume
    dsimp only
    split
    · next a ha =>
      cases hstep with
      | awaiting hcall' h' => exact (h'.answered ⟨i, _, hcall', rfl, ha⟩).goOn
    · exact hstep

/-- The code of the run stands where its answers have brought it, and the remote algorithms that are
spawned are those that it returned. -/
structure Told (A : GraphRun Obj Val F C V α R D) (s : State Obj Val F C V α R D) : Prop where
  stops : ∀ stop, s.main = .running stop → StopsAt A.code s.graph.cache stop
  early : s.main.early = true → s.remoteAlgorithms = []
  spawned : s.remoteAlgorithms ≠ [] → ∃ runResult, A.isDirectedGraphResult runResult = true ∧
    A.code.Produces (Answered s.graph.cache) (.ok (runResult, s.remoteAlgorithms))

variable {A : GraphRun Obj Val F C V α R D} {s : State Obj Val F C V α R D}

omit [DecidableEq Obj] in
/-- A state after the end of the code in which nothing is spawned. -/
theorem told_of_none (hrunning : ∀ stop, s.main ≠ .running stop) (hnone : s.remoteAlgorithms = []) :
    A.Told s where
  stops stop hmain := absurd hmain (hrunning stop)
  early _ := hnone
  spawned hsome := absurd hnone hsome

omit [DecidableEq Obj] in
/-- The main coroutine goes on, and the code is not concerned. -/
theorem Told.main (h : A.Told s) {main : Stage Obj Val F C V α R D} (hearly : main.early = false) :
    A.Told { s with main } where
  stops stop hmain := by
    obtain rfl : main = .running stop := hmain
    cases hearly
  early hmain := by
    rw [show main.early = true from hmain] at hearly
    cases hearly
  spawned := h.spawned

theorem Told.graph (h : A.Told s) {graph : DirectedGraph.State Obj Val F C V α R} {c : Cache.Caller}
    (hcache : graph.cache = s.graph.cache.step P c) : A.Told { s with graph } where
  stops stop hmain := by
    rw [hcache]
    exact (h.stops stop hmain).step c
  early := h.early
  spawned hsome := by
    obtain ⟨runResult, hresult, hproduces⟩ := h.spawned hsome
    refine ⟨runResult, hresult, ?_⟩
    rw [hcache]
    exact hproduces.mono (remembers_step c)

theorem Told.stepRun (h : A.Told s) (hmain : s.main = .running stop) :
    A.Told (A.stepRun s stop) := by
  have hnone : s.remoteAlgorithms = [] := h.early (by rw [hmain]; rfl)
  have hstops := (h.stops stop hmain).resume (P := A.inputs)
  have hsteps := stepRun_cases (A := A) (s := s) stop
  generalize A.stepRun s stop = s' at hsteps ⊢
  generalize (GraphRun.resume A.inputs s.graph.cache stop).1 = cache at hstops hsteps
  generalize (GraphRun.resume A.inputs s.graph.cache stop).2 = stop' at hstops hsteps
  cases hsteps with
  | goesOn _ =>
    refine ⟨fun stop'' heq => ?_, fun _ => hnone, fun hsome => absurd hnone hsome⟩
    obtain rfl := Stage.running.inj heq
    exact hstops
  | raised => exact told_of_none (fun stop heq => by cases heq) hnone
  | refused _ => exact told_of_none (fun stop heq => by cases heq) hnone
  | alone _ => exact told_of_none (fun stop heq => by cases heq) hnone
  | @spawns runResult forks hresult _ =>
    cases hstops with
    | ended hproduces =>
      -- the calls of the remote algorithms are added before those that the code has made
      have hspawned : A.code.Produces (Answered (cache.extend (A.forkCalls forks) []))
          (.ok (runResult, forks)) := hproduces.mono (remembers_extend _)
      cases hasync : A.asyncSpawnEnabled with
      | true =>
        exact ⟨fun stop heq => (by cases heq), fun hearly => (by cases hearly),
          fun _ => ⟨runResult, hresult, hspawned⟩⟩
      | false =>
        exact ⟨fun stop heq => (by cases heq), fun hearly => (by cases hearly),
          fun _ => ⟨runResult, hresult, hspawned⟩⟩

theorem Told.stepMain (h : A.Told s) : A.Told (A.stepMain s) := by
  unfold GraphRun.stepMain
  cases hmain : s.main with
  | starting =>
    have hnone : s.remoteAlgorithms = [] := h.early (by rw [hmain]; rfl)
    dsimp only
    split
    · refine ⟨fun stop heq => ?_, fun _ => hnone, fun hsome => absurd hnone hsome⟩
      obtain rfl := Stage.running.inj heq
      exact .suspended fun cache' _ outcome hrest => hrest
    · exact told_of_none (fun stop heq => by cases heq) hnone
  | running stop => exact h.stepRun hmain
  | awaitingSpawner =>
    cases s.graph.spawner with
    | ended outcome =>
      cases outcome with
      | ok results => exact h.main rfl
      | error e => exact h.main rfl
    | _ => exact h
  | finishing run left =>
    cases left with
    | zero => exact h.main rfl
    | succ left => exact h.main rfl
  | returned run outcome => exact h

theorem Told.step (h : A.Told s) (move : Activation.Move V) : A.Told (A.step s move) := by
  cases move with
  | main => exact h.stepMain
  | graph move =>
    exact stepGraph_rule h fun _ => h.graph (DirectedGraph.cache_step s.graph move)

end Stops

theorem told_initial (A : GraphRun Obj Val F C V α R D) (scheduler : Scheduler Nat F C) :
    A.Told (A.initial scheduler) :=
  ⟨fun stop heq => (by cases heq), fun _ => rfl, fun hsome => absurd rfl hsome⟩

/-! ### Created runs -/

section Created

variable {O X S : Type} {J : JsonModule F}

/-- The process of the run binds payload `k` of the remote algorithm, which its code has made from
what `resolve` has answered. -/
def Delivers (A : GraphRun Obj Val F C V α R D) (J : JsonModule F)
    (apps : String → Core.Application α O X S)
    (Answers : List Obj × Cache.Kwargs Val → Except PyExc (Cache.Kwargs Val) → Prop)
    (fork : Fork Obj F C V α R) (k : Nat) (run : RemoteRun Nat F C) : Prop :=
  ∃ inputs args payloads p, Answers (fork.inputProcessors, A.kwargs) (.ok inputs) ∧
    measuredArgs ((A.graph [] []).toArgs A.kwargs) ((A.graph [] []).toArgs inputs) = .ok args ∧
    fork.algorithm.coreRun args = .ok payloads ∧ payloads[k]? = some p ∧
    BindsPayload (apps run.algorithmName) (J.dumps run.algorithmParameters).toUTF8 p

theorem answered_of_returned {cache : Cache.State Obj Val} {i : Nat} {call : Cache.Call Obj Val}
    {d : Cache.Kwargs Val} (hcall : cache.calls[i]? = some call) (hd : call.state = .returned d) :
    Answered cache call.made (.ok d) := by
  refine ⟨i, call, hcall, rfl, ?_⟩
  rw [answer?, hcall, Option.map_some, hd]

/-- A run that was created is one for a remote algorithm that the code has returned. -/
theorem exists_fork_of_origin [DecidableEq Obj] (A : GraphRun Obj Val F C V α R D)
    (apps : String → Core.Application α O X S) (T : String → JsonPayloadType J α)
    (hagree : ∀ Answers runResult remoteAlgorithms,
      A.code.Produces Answers (.ok (runResult, remoteAlgorithms)) → ∀ fork ∈ remoteAlgorithms,
        Agree J fork.algorithm (apps fork.algorithm.remoteName) (T fork.algorithm.remoteName))
    {scheduler : Scheduler Nat F C} (hexisting : ∀ run ∈ scheduler.runs, run.origin = none)
    (σ : List (Activation.Move V)) :
    let s := run A.step (A.initial scheduler) σ
    (s.graph.scheduler.runs.filterMap RemoteRun.origin).Nodup ∧
      ∀ run ∈ s.graph.scheduler.runs, ∀ i k, run.origin = some (i, k) →
        ∃ runResult fork, A.isDirectedGraphResult runResult = true ∧
          A.code.Produces (Answered s.graph.cache) (.ok (runResult, s.remoteAlgorithms)) ∧
          s.remoteAlgorithms[i]? = some fork ∧
          A.Delivers J apps (Answered s.graph.cache) fork k run := by
  intro s
  have htold : A.Told s :=
    run_invariant (I := A.Told) (fun _ move h => h.step move) (told_initial A scheduler) σ
  obtain ⟨made, outcome, τ, hτ⟩ := (simulated_run A scheduler σ).reaches
  have hexists := Activation.exists_plans (A.activation s.remoteAlgorithms made outcome) hexisting τ
  rw [hτ] at hexists
  obtain ⟨plans, hplans⟩ := hexists
  refine ⟨hplans.distinct, fun run hrun i k horigin => ?_⟩
  have hsome (fork : Fork Obj F C V α R) (hfork : fork ∈ s.remoteAlgorithms) :
      ∃ runResult, A.isDirectedGraphResult runResult = true ∧
        A.code.Produces (Answered s.graph.cache) (.ok (runResult, s.remoteAlgorithms)) :=
    htold.spawned (List.ne_nil_of_mem hfork)
  obtain ⟨fork, args, payloads, p, hfork, ⟨call, d, hcall, hd, hargs⟩, hpayloads, hp, hbinds⟩ :=
    exists_payload_of_origin hplans apps T (fun fork hfork => by
      obtain ⟨runResult, -, hproduces⟩ := hsome fork hfork
      exact hagree _ _ _ hproduces fork hfork) hrun horigin
  obtain ⟨runResult, hresult, hproduces⟩ := hsome fork (List.mem_of_getElem? hfork)
  have hmade : call.made = (fork.inputProcessors, A.kwargs) :=
    Activation.made_of_fork (A.activation s.remoteAlgorithms made outcome) scheduler τ hfork
      (by rw [hτ]; exact hcall)
  have hanswered := answered_of_returned hcall hd
  rw [hmade] at hanswered
  exact ⟨runResult, fork, hresult, hproduces, hfork, d, args, payloads, p, hanswered, hargs,
    hpayloads, hp, hbinds⟩

/-! ### One snapshot -/

/-- A call of `resolve` that returns, returns these values. -/
def Shows (P : Cache.Inputs Obj Val) (value : Obj → Option Val)
    (request : List Obj × Cache.Kwargs Val) (a : Except PyExc (Cache.Kwargs Val)) : Prop :=
  ∀ d, a = .ok d → d = Cache.named P value request.1

/-- The cache of the run has made a run of its own. -/
theorem exists_cache_exec [DecidableEq Obj] (A : GraphRun Obj Val F C V α R D)
    (scheduler : Scheduler Nat F C) (σ : List (Activation.Move V)) :
    ∃ calls τ, (run A.step (A.initial scheduler) σ).graph.cache =
      Cache.exec A.inputs calls τ := by
  obtain ⟨made, outcome, ρ, hρ⟩ := (simulated_run A scheduler σ).reaches
  obtain ⟨τ, hτ⟩ := Activation.exists_cache_exec (A.activation _ made outcome) scheduler ρ
  rw [hρ] at hτ
  exact ⟨_, τ, hτ⟩

/-- The cache shows one snapshot to the code and to the remote algorithms. -/
theorem shows_of_answered [DecidableEq Obj] (A : GraphRun Obj Val F C V α R D)
    (scheduler : Scheduler Nat F C) (σ : List (Activation.Move V)) :
    let s := run A.step (A.initial scheduler) σ
    Cache.DistinctArgs A.inputs (s.graph.cache.calls.map Cache.Call.made) →
      ∀ request a, Answered s.graph.cache request a →
        Shows A.inputs s.graph.cache.data request a := by
  rintro s hdistinct request a ⟨i, call, hcall, rfl, ha⟩ d rfl
  obtain ⟨calls, τ, hτ⟩ := exists_cache_exec A scheduler σ
  have hcalls : s.graph.cache.calls.map Cache.Call.made = calls :=
    (congrArg (fun cache => cache.calls.map Cache.Call.made) hτ).trans
      (Cache.made_exec A.inputs calls τ)
  rw [hcalls] at hdistinct
  have hcache : Cache.Consistent A.inputs s.graph.cache := by
    rw [show s.graph.cache = Cache.exec A.inputs calls τ from hτ]
    exact Cache.consistent_exec (hdistinct.along τ)
  have hreturned : call.state = .returned d := by
    rw [answer?, hcall] at ha
    obtain ⟨args, kwargs, state⟩ := call
    cases state with
    | idle => cases ha
    | polling n => cases ha
    | returned results =>
      obtain rfl := Except.ok.inj (Option.some.inj ha)
      rfl
    | raised e => cases Option.some.inj ha
  exact hcache.returned _ _ _ (hcache.calls i call d hcall hreturned)

/-- In every run of the application in which no call of `resolve` lists an object twice, there is a
snapshot of the inputs: from its values the code has returned the remote algorithms, and a remote
algorithm has made the payload that the process of a created run binds. -/
theorem code_shares_snapshot [DecidableEq Obj] (A : GraphRun Obj Val F C V α R D) (J : JsonModule F)
    (apps : String → Core.Application α O X S) (T : String → JsonPayloadType J α)
    (hagree : ∀ Answers runResult remoteAlgorithms,
      A.code.Produces Answers (.ok (runResult, remoteAlgorithms)) → ∀ fork ∈ remoteAlgorithms,
        Agree J fork.algorithm (apps fork.algorithm.remoteName) (T fork.algorithm.remoteName))
    (scheduler : Scheduler Nat F C) (hexisting : ∀ run ∈ scheduler.runs, run.origin = none)
    (σ : List (Activation.Move V)) :
    let s := run A.step (A.initial scheduler) σ
    Cache.DistinctArgs A.inputs (s.graph.cache.calls.map Cache.Call.made) →
      ∃ value : Obj → Option Val, ∀ run ∈ s.graph.scheduler.runs, ∀ i k, run.origin = some (i, k) →
        ∃ runResult fork, A.isDirectedGraphResult runResult = true ∧
          A.code.Produces (Shows A.inputs value) (.ok (runResult, s.remoteAlgorithms)) ∧
          s.remoteAlgorithms[i]? = some fork ∧
          A.Delivers J apps (Shows A.inputs value) fork k run := by
  intro s hdistinct
  have hshows : ∀ request a, Answered s.graph.cache request a →
      Shows A.inputs s.graph.cache.data request a := shows_of_answered A scheduler σ hdistinct
  refine ⟨s.graph.cache.data, fun run hrun i k horigin => ?_⟩
  obtain ⟨runResult, fork, hresult, hproduces, hfork, inputs, args, payloads, p, hinputs, hrest⟩ :=
    (exists_fork_of_origin A apps T hagree hexisting σ).2 run hrun i k horigin
  exact ⟨runResult, fork, hresult, hproduces.mono hshows, hfork, inputs, args, payloads, p,
    hshows _ _ hinputs, hrest⟩

end Created

end GraphRun

namespace FanOutAlgorithm

variable (B : FanOutAlgorithm Obj Val F C V α R D)
  {Answers : List Obj × Cache.Kwargs Val → Except PyExc (Cache.Kwargs Val) → Prop}
  {kwargs : Cache.Kwargs Val} {runResult : D} {childAlgorithms : List (Fork Obj F C V α R)}

/-- With these answers of `resolve`, `_run` returns the result, and `_get_branches` the remote
algorithms, on the resolved inputs. -/
def Branches (Answers : List Obj × Cache.Kwargs Val → Except PyExc (Cache.Kwargs Val) → Prop)
    (kwargs : Cache.Kwargs Val) (runResult : D) (childAlgorithms : List (Fork Obj F C V α R)) :
    Prop :=
  ∃ inputs args branchArgs, Answers (B.inputProcessors, kwargs) (.ok inputs) ∧
    measuredArgs (B.toArgs kwargs) (B.toArgs inputs) = .ok args ∧
    (B.coreRun args).Produces Answers (.ok runResult) ∧
    passBoth (B.toArgs inputs) (B.toArgs kwargs) = .ok branchArgs ∧
    (B.getBranches branchArgs).Produces Answers (.ok childAlgorithms)

theorem branches_of_run (h : (B.run kwargs).Produces Answers (.ok (runResult, childAlgorithms))) :
    B.Branches Answers kwargs runResult childAlgorithms := by
  unfold run at h
  simp only [Coroutine.produces_bind_ok, Coroutine.produces_await, Coroutine.produces_ends_iff,
    Coroutine.produces_pure_iff] at h
  obtain ⟨inputs, hinputs, args, hargs, runResult', hrun, branchArgs, hbranchArgs, branches,
    hbranches, -, -, heq⟩ := h
  obtain ⟨rfl, rfl⟩ := Prod.mk.inj (Except.ok.inj heq)
  exact ⟨inputs, args, branchArgs, hinputs, hargs.symm, hrun, hbranchArgs.symm, hbranches⟩

/-- In every run of an application with a `FanOutAlgorithm`, a run that was created is one for a
branch: `_run` has returned a `DirectedGraphResult`, `_get_branches` the remote algorithm, and the
process of the run binds the payload that this algorithm made from its inputs. -/
theorem created_runs_bind_branches {O X S : Type} [DecidableEq Obj]
    (A : GraphRun Obj Val F C V α R D) (hcode : A.code = B.run A.kwargs) (J : JsonModule F)
    (apps : String → Core.Application α O X S) (T : String → JsonPayloadType J α)
    (hagree : ∀ Answers args childAlgorithms,
      (B.getBranches args).Produces Answers (.ok childAlgorithms) → ∀ fork ∈ childAlgorithms,
        Agree J fork.algorithm (apps fork.algorithm.remoteName) (T fork.algorithm.remoteName))
    (scheduler : Scheduler Nat F C) (hexisting : ∀ run ∈ scheduler.runs, run.origin = none)
    (σ : List (Activation.Move V)) :
    let s := Lib.run A.step (A.initial scheduler) σ
    (s.graph.scheduler.runs.filterMap RemoteRun.origin).Nodup ∧
      ∀ run ∈ s.graph.scheduler.runs, ∀ i k, run.origin = some (i, k) →
        ∃ runResult fork, A.isDirectedGraphResult runResult = true ∧
          B.Branches (Answered s.graph.cache) A.kwargs runResult s.remoteAlgorithms ∧
          s.remoteAlgorithms[i]? = some fork ∧
          A.Delivers J apps (Answered s.graph.cache) fork k run := by
  intro s
  obtain ⟨hdistinct, hruns⟩ :=
    GraphRun.exists_fork_of_origin A apps T (fun Answers runResult childAlgorithms h => by
      rw [hcode] at h
      obtain ⟨-, -, branchArgs, -, -, -, -, hbranches⟩ := B.branches_of_run h
      exact hagree Answers branchArgs childAlgorithms hbranches) hexisting σ
  refine ⟨hdistinct, fun run hrun i k horigin => ?_⟩
  obtain ⟨runResult, fork, hresult, hproduces, hfork, hdelivers⟩ := hruns run hrun i k horigin
  rw [hcode] at hproduces
  exact ⟨runResult, fork, hresult, B.branches_of_run hproduces, hfork, hdelivers⟩

end FanOutAlgorithm

namespace ForkedAlgorithm

variable (B : ForkedAlgorithm Obj Val F C V α R D)
  {Answers : List Obj × Cache.Kwargs Val → Except PyExc (Cache.Kwargs Val) → Prop}
  {kwargs : Cache.Kwargs Val} {runResult : D} {forks : List (Fork Obj F C V α R)}

/-- With these answers of `resolve`, `_fork_inputs` or `_main_inputs` returns the inputs, as
`_is_forked` says, and on them `_get_forks` the remote algorithms and `_run` the result. -/
def Forks (Answers : List Obj × Cache.Kwargs Val → Except PyExc (Cache.Kwargs Val) → Prop)
    (kwargs : Cache.Kwargs Val) (runResult : D) (forks : List (Fork Obj F C V α R)) : Prop :=
  ∃ forked inputs forkArgs args, (B.isForked (B.toArgs kwargs)).Produces Answers (.ok forked) ∧
    (if forked then B.forkInputs kwargs else B.mainInputs kwargs).Produces Answers (.ok inputs) ∧
    passBoth (B.toArgs inputs) (B.toArgs kwargs) = .ok forkArgs ∧
    (B.getForks forkArgs).Produces Answers (.ok forks) ∧
    measuredArgs (B.toArgs kwargs) (B.toArgs inputs) = .ok args ∧
    (B.coreRun args).Produces Answers (.ok runResult)

theorem forks_of_run (h : (B.run kwargs).Produces Answers (.ok (runResult, forks))) :
    B.Forks Answers kwargs runResult forks := by
  unfold run at h
  obtain ⟨forked, hforked, h⟩ := Coroutine.produces_bind_ok.mp h
  cases forked with
  | true =>
    simp only [if_true, Coroutine.produces_bind_ok, Coroutine.produces_ends_iff,
      Coroutine.produces_pure_iff] at h
    obtain ⟨inputs, hinputs, forkArgs, hforkArgs, forks', hforks, args, hargs, runResult', hrun, -,
      -, heq⟩ := h
    obtain ⟨rfl, rfl⟩ := Prod.mk.inj (Except.ok.inj heq)
    exact ⟨true, inputs, forkArgs, args, hforked, hinputs, hforkArgs.symm, hforks, hargs.symm, hrun⟩
  | false =>
    simp only [Bool.false_eq_true, if_false, Coroutine.produces_bind_ok,
      Coroutine.produces_ends_iff, Coroutine.produces_pure_iff] at h
    obtain ⟨inputs, hinputs, forkArgs, hforkArgs, forks', hforks, args, hargs, runResult', hrun, -,
      -, heq⟩ := h
    obtain ⟨rfl, rfl⟩ := Prod.mk.inj (Except.ok.inj heq)
    exact ⟨false, inputs, forkArgs, args, hforked, hinputs, hforkArgs.symm, hforks, hargs.symm,
      hrun⟩

/-- In every run of an application with a `ForkedAlgorithm`, a run that was created is one for a
fork: `_get_forks` has returned the remote algorithm and `_run` a `DirectedGraphResult`, and the
process of the run binds the payload that this algorithm made from its inputs. -/
theorem created_runs_bind_forks {O X S : Type} [DecidableEq Obj]
    (A : GraphRun Obj Val F C V α R D) (hcode : A.code = B.run A.kwargs) (J : JsonModule F)
    (apps : String → Core.Application α O X S) (T : String → JsonPayloadType J α)
    (hagree : ∀ Answers args forks, (B.getForks args).Produces Answers (.ok forks) →
      ∀ fork ∈ forks,
        Agree J fork.algorithm (apps fork.algorithm.remoteName) (T fork.algorithm.remoteName))
    (scheduler : Scheduler Nat F C) (hexisting : ∀ run ∈ scheduler.runs, run.origin = none)
    (σ : List (Activation.Move V)) :
    let s := Lib.run A.step (A.initial scheduler) σ
    (s.graph.scheduler.runs.filterMap RemoteRun.origin).Nodup ∧
      ∀ run ∈ s.graph.scheduler.runs, ∀ i k, run.origin = some (i, k) →
        ∃ runResult fork, A.isDirectedGraphResult runResult = true ∧
          B.Forks (Answered s.graph.cache) A.kwargs runResult s.remoteAlgorithms ∧
          s.remoteAlgorithms[i]? = some fork ∧
          A.Delivers J apps (Answered s.graph.cache) fork k run := by
  intro s
  obtain ⟨hdistinct, hruns⟩ :=
    GraphRun.exists_fork_of_origin A apps T (fun Answers runResult forks h => by
      rw [hcode] at h
      obtain ⟨-, -, forkArgs, -, -, -, -, hforks, -⟩ := B.forks_of_run h
      exact hagree Answers forkArgs forks hforks) hexisting σ
  refine ⟨hdistinct, fun run hrun i k horigin => ?_⟩
  obtain ⟨runResult, fork, hresult, hproduces, hfork, hdelivers⟩ := hruns run hrun i k horigin
  rw [hcode] at hproduces
  exact ⟨runResult, fork, hresult, B.forks_of_run hproduces, hfork, hdelivers⟩

end ForkedAlgorithm

/-! ### Forecasts -/

abbrev ForecastFork :=
  Fork Bool {t : Json.FloatText // t.valid = true} Unit Unit Int (List String)

/-- The forecasts, as the one branch of an application with one input. -/
def branchedForecasts :
    FanOutAlgorithm Bool String {t : Json.FloatText // t.valid = true} Unit Unit Int (List String)
      Bool where
  inputProcessors := [false]
  asArg _ := .object ()
  coreRun _ := .ends (.ok true)
  getBranches _ := .ends (.ok [⟨packedForecasts, []⟩])

/-- The forecasts, as the one fork of an application with one input. -/
def forkedForecasts :
    ForkedAlgorithm Bool String {t : Json.FloatText // t.valid = true} Unit Unit Int (List String)
      Bool where
  inputProcessors := [false]
  asArg _ := .object ()
  isForked _ := .ends (.ok false)
  mainInputs kwargs := .await ([false], kwargs)
  forkInputs kwargs := .await ([], kwargs)
  getForks _ := .ends (.ok [⟨packedForecasts, []⟩])
  mainRun _ := .ends (.ok true)
  forkRun _ := .ends (.ok false)

def forecastingRun (code : AlgorithmCode Bool String (Bool × List ForecastFork)) :
    GraphRun Bool String {t : Json.FloatText // t.valid = true} Unit Unit Int (List String)
      Bool where
  inputs := Cache.readerChain
  kwargs := .empty
  asArg _ := .object ()
  code
  isDirectedGraphResult := id
  asyncSpawnEnabled := false
  spawnBaseDelaySeconds := 0
  others := []
  stages := Core.smoothRun
  suspensions := 0

/-- The input is resolved, and the first forecast is created. -/
def forecastingRunMoves : List (Activation.Move Unit) :=
  [.main, .main, .graph (.cache (.task 0)), .graph (.cache (.task 0)), .main,
    .main, .graph (.spawner []), .graph (.fork 0 .ends), .graph (.fork 0 .ends),
    .graph (.fork 0 (.creates "run-1" none))]

def forecastingEnd (code : AlgorithmCode Bool String (Bool × List ForecastFork)) :
    GraphRun.State Bool String {t : Json.FloatText // t.valid = true} Unit Unit Int (List String)
      Bool :=
  run (forecastingRun code).step ((forecastingRun code).initial ⟨[], List.nodup_nil⟩)
    forecastingRunMoves

theorem first_forecast_bound {D : Type}
    {A : GraphRun Bool String {t : Json.FloatText // t.valid = true} Unit Unit Int (List String) D}
    {s : GraphRun.State Bool String {t : Json.FloatText // t.valid = true} Unit Unit Int
      (List String) D} (horigins : s.graph.scheduler.runs.map RemoteRun.origin = [some (0, 0)])
    (hruns : ∀ run ∈ s.graph.scheduler.runs, ∀ i k, run.origin = some (i, k) →
      s.remoteAlgorithms = [⟨packedForecasts, []⟩] ∧ ∃ fork, s.remoteAlgorithms[i]? = some fork ∧
        A.Delivers utf8Json (fun _ => forecastApplication) (Answered s.graph.cache) fork k run) :
    ∃ run ∈ s.graph.scheduler.runs,
      BindsPayload forecastApplication (utf8Json.dumps run.algorithmParameters).toUTF8 1 := by
  obtain ⟨first, hfirst, horigin⟩ := List.map_eq_singleton_iff.mp horigins
  have hmem : first ∈ s.graph.scheduler.runs := by
    rw [hfirst]
    exact List.mem_singleton_self _
  obtain ⟨hforks, fork, hfork, inputs, args, payloads, p, -, -, hpayloads, hp, hbinds⟩ :=
    hruns first hmem 0 0 horigin
  rw [hforks] at hfork
  obtain rfl : ⟨packedForecasts, []⟩ = fork := Option.some.inj hfork
  obtain rfl : [1, 2] = payloads := Except.ok.inj hpayloads
  obtain rfl : 1 = p := Option.some.inj hp
  exact ⟨first, hmem, hbinds⟩

theorem agree_of_forecasts {forks : List ForecastFork}
    (hforks : forks = [⟨packedForecasts, []⟩]) : ∀ fork ∈ forks,
      Agree utf8Json fork.algorithm forecastApplication counterType := by
  intro fork hfork
  rw [hforks] at hfork
  obtain rfl := List.mem_singleton.mp hfork
  exact agree_packedForecasts

theorem created_runs_bind_branches_forecasts :
    ∃ run ∈ (forecastingEnd (branchedForecasts.run .empty)).graph.scheduler.runs,
      BindsPayload forecastApplication (utf8Json.dumps run.algorithmParameters).toUTF8 1 := by
  refine first_forecast_bound (A := forecastingRun (branchedForecasts.run .empty))
    (by decide +kernel) fun run hrun i k horigin => ?_
  obtain ⟨runResult, fork, -, ⟨_, _, _, _, _, _, _, hbranches⟩, hfork, hdelivers⟩ :=
    (branchedForecasts.created_runs_bind_branches (forecastingRun (branchedForecasts.run .empty))
      rfl utf8Json (fun _ => forecastApplication) (fun _ => counterType)
      (fun Answers args childAlgorithms h =>
        agree_of_forecasts (Except.ok.inj (Coroutine.produces_ends_iff.mp h)))
      ⟨[], List.nodup_nil⟩ (by simp) forecastingRunMoves).2 run hrun i k horigin
  exact ⟨Except.ok.inj (Coroutine.produces_ends_iff.mp hbranches), fork, hfork, hdelivers⟩

theorem created_runs_bind_forks_forecasts :
    ∃ run ∈ (forecastingEnd (forkedForecasts.run .empty)).graph.scheduler.runs,
      BindsPayload forecastApplication (utf8Json.dumps run.algorithmParameters).toUTF8 1 := by
  refine first_forecast_bound (A := forecastingRun (forkedForecasts.run .empty))
    (by decide +kernel) fun run hrun i k horigin => ?_
  obtain ⟨runResult, fork, -, ⟨_, _, _, _, _, _, _, hforks, _⟩, hfork, hdelivers⟩ :=
    (forkedForecasts.created_runs_bind_forks (forecastingRun (forkedForecasts.run .empty))
      rfl utf8Json (fun _ => forecastApplication) (fun _ => counterType)
      (fun Answers args forks h =>
        agree_of_forecasts (Except.ok.inj (Coroutine.produces_ends_iff.mp h)))
      ⟨[], List.nodup_nil⟩ (by simp) forecastingRunMoves).2 run hrun i k horigin
  exact ⟨Except.ok.inj (Coroutine.produces_ends_iff.mp hforks), fork, hfork, hdelivers⟩

theorem code_shares_snapshot_forecasts :
    let A := forecastingRun (branchedForecasts.run .empty)
    let s := forecastingEnd (branchedForecasts.run .empty)
    s.graph.scheduler.runs.length = 1 ∧
      ∃ value : Bool → Option String, ∀ run ∈ s.graph.scheduler.runs, ∀ i k,
        run.origin = some (i, k) → ∃ runResult fork, A.isDirectedGraphResult runResult = true ∧
          A.code.Produces (GraphRun.Shows A.inputs value) (.ok (runResult, s.remoteAlgorithms)) ∧
          s.remoteAlgorithms[i]? = some fork ∧
          A.Delivers utf8Json (fun _ => forecastApplication) (GraphRun.Shows A.inputs value) fork k
            run := by
  refine ⟨by decide +kernel, (forecastingRun (branchedForecasts.run .empty)).code_shares_snapshot
    utf8Json (fun _ => forecastApplication) (fun _ => counterType)
    (fun Answers runResult remoteAlgorithms h => ?_) ⟨[], List.nodup_nil⟩ (by simp)
    forecastingRunMoves ⟨by decide, by decide +kernel⟩⟩
  obtain ⟨_, _, _, _, _, _, _, hbranches⟩ := branchedForecasts.branches_of_run h
  exact agree_of_forecasts (Except.ok.inj (Coroutine.produces_ends_iff.mp hbranches))

end NexusSdk.Algorithms
