import NexusSdk.Algorithms.RemoteAlgorithm

/-! What a step of an invocation can do, and where the control flow between two awaits leads. -/

namespace NexusSdk.Algorithms

open Lib Input

variable {ι F C V α R : Type} {alg : RemoteAlgorithm F C V α R}

/-- What a step of an invocation can do. -/
inductive Transition (alg : RemoteAlgorithm F C V α R) (i : ι) (scheduler : Scheduler ι F C) :
    Phase ι F C V α R → Scheduler ι F C → Phase ι F C V α R → Prop
  | resolved (kwargs results : RunArgs V) :
    Transition alg i scheduler (.resolving kwargs) scheduler (afterResolve kwargs results)
  | ran (args : RunArgs V) :
    Transition alg i scheduler (.running args) scheduler (alg.afterRun args)
  | listed (l : Submitting V α) (parameters : Json F) (ids : List String)
      (hids : ids.Perm ((scheduler.under alg.remoteName l.tag).map RemoteRun.id)) :
    Transition alg i scheduler (.lookingUp l parameters) scheduler (alg.describe l parameters [] ids)
  | described (l : Submitting V α) (parameters : Json F)
      (described : List (Option (RemoteRun ι F C))) (requestId : String) (remaining : List String)
      (run : Option (RemoteRun ι F C)) (hrun : ∀ r ∈ run, scheduler.find? requestId = some r) :
    Transition alg i scheduler (.describing l parameters described requestId remaining) scheduler
      (alg.describe l parameters (described ++ [run]) remaining)
  | created (l : Submitting V α) (request : RunRequest F C) (id : String)
      (receivedAt : Option String) (scheduler' : Scheduler ι F C)
      (hcreate : scheduler.create ⟨request, id, receivedAt, some (i, l.requestIds.length)⟩ =
        some scheduler')
      (phase : Phase ι F C V α R) (hphase : phase = alg.next l id ∨ ∃ e, phase = .failed e) :
    Transition alg i scheduler (.creating l request) scheduler' phase
  | raised (phase : Phase ι F C V α R) (e : PyExc) :
    Transition alg i scheduler phase scheduler (.failed e)

theorem transition_of_resume {i : ι} {scheduler scheduler' : Scheduler ι F C}
    {phase phase' : Phase ι F C V α R} {answer : Answer V}
    (h : alg.resume i scheduler phase answer = some (scheduler', phase')) :
    Transition alg i scheduler phase scheduler' phase' := by
  unfold RemoteAlgorithm.resume at h
  split at h
  · cases h
    exact .resolved _ _
  · cases h
    exact .ran _
  · split at h
    · next hids =>
      cases h
      exact .listed _ _ _ hids
    · cases h
  · obtain ⟨run, hrun, heq⟩ := Option.map_eq_some_iff.mp h
    cases heq
    exact .described _ _ _ _ _ _ fun r hr => by rwa [← Option.mem_some.mp hr]
  · cases h
    exact .described _ _ _ _ _ none (by simp)
  · obtain ⟨s, hcreate, heq⟩ := Option.map_eq_some_iff.mp h
    cases heq
    exact .created _ _ _ _ _ hcreate _ (.inl rfl)
  · obtain ⟨s, hcreate, heq⟩ := Option.map_eq_some_iff.mp h
    cases heq
    exact .created _ _ _ _ _ hcreate _ (.inr ⟨_, rfl⟩)
  · cases h
  · cases h
    exact .raised _ _
  · cases h

/-- A move changes nothing, or is a step of the invocation that it names. -/
theorem step_cases [DecidableEq ι] (algs : ι → RemoteAlgorithm F C V α R)
    (s : Submissions ι F C V α R) (move : ι × Answer V) :
    s.step algs move = s ∨ ∃ scheduler phase,
      Transition (algs move.1) move.1 s.scheduler (s.phases move.1) scheduler phase ∧
        s.step algs move = ⟨scheduler, Function.update s.phases move.1 phase⟩ := by
  unfold Submissions.step
  split
  · exact .inl rfl
  · next hresume => exact .inr ⟨_, _, transition_of_resume hresume, rfl⟩

theorem runs_create {s s' : Scheduler ι F C} {run : RemoteRun ι F C} (h : s.create run = some s') :
    s'.runs = s.runs ++ [run] := by
  unfold Scheduler.create at h
  split at h
  · cases h
  · cases h
    rfl

theorem mem_under {s : Scheduler ι F C} {name tag : String} {run : RemoteRun ι F C} :
    run ∈ s.under name tag ↔ run ∈ s.runs ∧ run.Under name tag := by
  simp [Scheduler.under]

/-- Ids determine runs. -/
theorem eq_of_id {s : Scheduler ι F C} {a b : RemoteRun ι F C} (ha : a ∈ s.runs) (hb : b ∈ s.runs)
    (h : a.id = b.id) : a = b :=
  List.inj_on_of_nodup_map s.nodup ha hb h

theorem find?_spec {s : Scheduler ι F C} {id : String} {run : RemoteRun ι F C}
    (h : s.find? id = some run) : run ∈ s.runs ∧ run.id = id :=
  ⟨List.mem_of_find?_eq_some h, by simpa using List.find?_some h⟩

theorem mapM_spec {A B : Type} {f : A → Option B} {l : List A} {l' : List B}
    (h : l.mapM f = some l') : l'.length = l.length ∧ ∀ b ∈ l', ∃ a ∈ l, f a = some b := by
  induction l generalizing l' with
  | nil =>
    obtain rfl : [] = l' := by simpa using h
    simp
  | cons a l ih =>
    rw [List.mapM_cons] at h
    obtain ⟨b, hb, h⟩ := Option.bind_eq_some_iff.mp h
    obtain ⟨rest, hrest, h⟩ := Option.bind_eq_some_iff.mp h
    cases h
    obtain ⟨hlength, hmem⟩ := ih hrest
    refine ⟨by simp [hlength], fun b' hb' => ?_⟩
    rcases List.mem_cons.mp hb' with rfl | hb'
    · exact ⟨a, List.mem_cons_self, hb⟩
    · obtain ⟨a', ha', hf⟩ := hmem b' hb'
      exact ⟨a', List.mem_cons_of_mem a ha', hf⟩

theorem exists_mapM {A B : Type} {f : A → Option B} {l : List A}
    (h : ∀ a ∈ l, ∃ b, f a = some b) : ∃ l', l.mapM f = some l' := by
  induction l with
  | nil => exact ⟨[], rfl⟩
  | cons a l ih =>
    obtain ⟨b, hb⟩ := h a List.mem_cons_self
    obtain ⟨l', hl'⟩ := ih fun a' ha' => h a' (List.mem_cons_of_mem a ha')
    exact ⟨b :: l', by simp [List.mapM_cons, hb, hl']⟩

/-- The latest run is one of those whose metadata was fetched; there is none only if there were no
runs. -/
theorem latest_spec {described : List (Option (RemoteRun ι F C))}
    {found : Option (RemoteRun ι F C)} (h : latest described = .ok found) :
    (∀ run ∈ found, some run ∈ described) ∧ (found = none → described = []) := by
  unfold latest at h
  split at h
  · cases h
  · next run hruns =>
    cases h
    obtain ⟨-, hmem⟩ := mapM_spec hruns
    obtain ⟨o, ho, hsome⟩ := hmem run (List.mem_singleton_self run)
    refine ⟨fun run' hrun' => ?_, by simp⟩
    obtain rfl := Option.some.inj hrun'
    obtain rfl : o = some run := hsome
    exact ho
  · next runs _ hruns =>
    obtain ⟨hlength, hmem⟩ := mapM_spec hruns
    split at h
    · cases h
    · next keyed hkeyed =>
      cases h
      obtain ⟨hlength', hmem'⟩ := mapM_spec hkeyed
      constructor
      · intro run hrun
        obtain ⟨item, hlast, rfl⟩ := Option.map_eq_some_iff.mp hrun
        have hitem : item ∈ keyed :=
          (List.perm_insertionSort _ _).mem_iff.mp (List.mem_of_getLast? hlast)
        obtain ⟨run, hmemRun, heq⟩ := hmem' item hitem
        obtain ⟨receivedAt, -, rfl⟩ := Option.map_eq_some_iff.mp heq
        obtain ⟨o, ho, rfl⟩ := hmem run hmemRun
        exact ho
      · intro hnone
        have hsorted := List.getLast?_eq_none_iff.mp (Option.map_eq_none_iff.mp hnone)
        have hsame := List.length_insertionSort (fun a b => a.1 ≤ b.1) keyed
        rw [hsorted, List.length_nil] at hsame
        exact List.length_eq_zero_iff.mp (by omega)

/-- The runs that are described with their times can be sorted. -/
theorem latest_ok {described : List (Option (RemoteRun ι F C))}
    (h : ∀ o ∈ described, ∃ run, o = some run ∧ ∃ receivedAt, run.receivedAt = some receivedAt) :
    ∃ found, latest described = .ok found := by
  obtain ⟨runs, hruns⟩ := exists_mapM (f := id) (l := described) fun o ho => by
    obtain ⟨run, rfl, -⟩ := h o ho
    exact ⟨run, rfl⟩
  have htimes : ∀ run ∈ runs, ∃ keyed : String × RemoteRun ι F C,
      (run.receivedAt.map fun receivedAt => (receivedAt, run)) = some keyed := by
    intro run hrun
    obtain ⟨o, ho, rfl⟩ := (mapM_spec hruns).2 run hrun
    obtain ⟨run', heq, receivedAt, hreceivedAt⟩ := h _ ho
    obtain rfl := Option.some.inj heq
    exact ⟨(receivedAt, run), by rw [hreceivedAt]; rfl⟩
  obtain ⟨keyed, hkeyed⟩ := exists_mapM htimes
  unfold latest
  rw [hruns]
  split
  · next heq => cases heq
  · exact ⟨_, rfl⟩
  · next runs' _ heq =>
    obtain rfl := Option.some.inj heq
    rw [hkeyed]
    exact ⟨_, rfl⟩

/-- Where `create` leads. -/
theorem create_rule {P : Phase ι F C V α R → Prop} {l : Submitting V α} (parameters : Json F)
    (hfail : ∀ e, P (.failed e))
    (hcreate : ∀ request : RunRequest F C, request.algorithmName = alg.remoteName →
      request.tag = l.tag → P (.creating l request)) : P (alg.create l parameters) := by
  unfold RemoteAlgorithm.create
  split
  · exact hfail _
  · next request hrequest =>
    obtain ⟨config, -, hrequest⟩ := bind_eq_ok.mp hrequest
    obtain ⟨parentRequest, -, hrequest⟩ := bind_eq_ok.mp hrequest
    cases hrequest
    exact hcreate _ rfl rfl

theorem payloadTag_of_prepare {args : RunArgs V} {commonTag tag : String} {payload : α}
    {parameters : Json F} (h : alg.prepare args commonTag payload = .ok (tag, parameters)) :
    alg.payloadTag args commonTag payload = .ok tag := by
  obtain ⟨tag', htag, h⟩ := bind_eq_ok.mp h
  obtain ⟨-, -, h⟩ := bind_eq_ok.mp h
  obtain ⟨parameters', -, h⟩ := bind_eq_ok.mp h
  cases h
  exact htag

/-- Where the loop goes on: it ends, or comes to the next payload. -/
theorem submit_rule {P : Phase ι F C V α R → Prop} (args : RunArgs V) (commonTag : String)
    (requestIds : List String) (payloads : List α) (hfail : ∀ e, P (.failed e))
    (hdone : payloads = [] → ∀ r, P (.done (some (requestIds, commonTag)) r))
    (hlookup : ∀ payload rest tag parameters, payloads = payload :: rest →
      alg.payloadTag args commonTag payload = .ok tag → alg.forceRun = false →
      P (.lookingUp ⟨args, commonTag, requestIds, payload, tag, rest⟩ parameters))
    (hcreate : ∀ payload rest tag, payloads = payload :: rest →
      alg.payloadTag args commonTag payload = .ok tag → alg.forceRun = true →
      ∀ request : RunRequest F C, request.algorithmName = alg.remoteName → request.tag = tag →
      P (.creating ⟨args, commonTag, requestIds, payload, tag, rest⟩ request)) :
    P (alg.submit args commonTag requestIds payloads) := by
  cases payloads with
  | nil => exact hdone rfl _
  | cons payload rest =>
    rw [RemoteAlgorithm.submit]
    split
    · exact hfail _
    · next tag parameters hprepare =>
      have htag := payloadTag_of_prepare hprepare
      simp only
      split
      · next hforce =>
        exact create_rule parameters hfail (hcreate payload rest tag rfl htag hforce)
      · next hforce =>
        exact hlookup payload rest tag parameters rfl htag (Bool.eq_false_iff.mpr hforce)

/-- Where the invocation goes once the metadata of a run is fetched. -/
theorem describe_rule {P : Phase ι F C V α R → Prop} {l : Submitting V α} {parameters : Json F}
    {described : List (Option (RemoteRun ι F C))} {remaining : List String}
    (hfail : ∀ e, P (.failed e))
    (hmore : ∀ requestId rest, remaining = requestId :: rest →
      P (.describing l parameters described requestId rest))
    (hreuse : ∀ run, some run ∈ described → P (alg.next l run.id))
    (hnone : described = [] → remaining = [] → P (alg.create l parameters)) :
    P (alg.describe l parameters described remaining) := by
  cases remaining with
  | cons requestId rest => exact hmore requestId rest rfl
  | nil =>
    rw [RemoteAlgorithm.describe]
    split
    · exact hfail _
    · next run hlatest => exact hreuse run ((latest_spec hlatest).1 run rfl)
    · next hlatest => exact hnone ((latest_spec hlatest).2 rfl) rfl

end NexusSdk.Algorithms
