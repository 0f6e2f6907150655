import NexusSdk.Algorithms.Steps

/-! Where a submitted payload ends up: the loop over the payloads, in which a lookup also finds the
runs of the payloads before. -/

namespace NexusSdk.Algorithms

open Lib Input

/-! ### One invocation -/

/-- An invocation of `run` whose inputs are resolved and whose hooks return, with the runs that exist
when it starts. -/
structure Invocation (F C V α R : Type) where
  alg : RemoteAlgorithm F C V α R
  existing : Scheduler Unit F C
  kwargs : RunArgs V
  results : RunArgs V
  args : RunArgs V
  payloads : List α
  commonTag : String
  tag : α → String
  args_eq : measuredArgs kwargs results = .ok args
  coreRun_eq : alg.coreRun args = .ok payloads
  generateTag_eq : alg.generateTag args = .ok commonTag
  payloadTag_eq : ∀ p ∈ payloads, alg.payloadTag args commonTag p = .ok (tag p)
  foreign : ∀ run ∈ existing.runs, run.origin = none

namespace Invocation

variable {F C V α R : Type} (I : Invocation F C V α R)

def initial : Submissions Unit F C V α R := ⟨I.existing, fun _ => .resolving I.kwargs⟩

/-- The state after the results of the inputs and the answers `σ`. -/
def exec (σ : List (Unit × Answer V)) : Submissions Unit F C V α R :=
  run (Submissions.step fun _ => I.alg) I.initial (((), .resolves I.results) :: σ)

def Existed (tag : String) : Prop := ∃ run ∈ I.existing.runs, run.Under I.alg.remoteName tag

/-- The payload is the first under its tag, and no run existed under it. -/
def First (j : Nat) (p : α) : Prop :=
  ¬ I.Existed (I.tag p) ∧ ∀ m q, m < j → I.payloads[m]? = some q → I.tag q ≠ I.tag p

/-- Each id is that of a run under the tag of its payload; if runs are forced, of the run that was
created for it. -/
def Submitted (scheduler : Scheduler Unit F C) (ids : List String) : Prop :=
  ∀ j p id, I.payloads[j]? = some p → ids[j]? = some id →
    ∃ run ∈ scheduler.runs, run.id = id ∧ run.Under I.alg.remoteName (I.tag p) ∧
      (I.alg.forceRun = true → run.origin = some ((), j))

/-- The runs of this invocation belong to payloads; unless runs are forced, to the first under their
tags. -/
structure Sound (scheduler : Scheduler Unit F C) : Prop where
  existing : ∀ run ∈ I.existing.runs, run ∈ scheduler.runs
  created : ∀ run ∈ scheduler.runs, run ∈ I.existing.runs ∨
    ∃ j p, run.origin = some ((), j) ∧ I.payloads[j]? = some p ∧
      run.Under I.alg.remoteName (I.tag p) ∧ (I.alg.forceRun = false → I.First j p)

structure AtPayload (scheduler : Scheduler Unit F C) (l : Submitting V α) : Prop where
  args : l.args = I.args
  commonTag : l.commonTag = I.commonTag
  rest : I.payloads.drop l.requestIds.length = l.payload :: l.rest
  tag : l.tag = I.tag l.payload
  submitted : I.Submitted scheduler l.requestIds

def PhaseSound (scheduler : Scheduler Unit F C) : Phase Unit F C V α R → Prop
  | .resolving _ => False
  | .running args => args = I.args
  | .lookingUp l _ => I.AtPayload scheduler l ∧ I.alg.forceRun = false
  | .describing l _ described requestId remaining =>
    I.AtPayload scheduler l ∧ I.alg.forceRun = false ∧
      (∀ run, some run ∈ described → run ∈ scheduler.under I.alg.remoteName l.tag) ∧
      ∀ id ∈ requestId :: remaining, ∃ run ∈ scheduler.under I.alg.remoteName l.tag, run.id = id
  | .creating l request =>
    I.AtPayload scheduler l ∧ request.algorithmName = I.alg.remoteName ∧ request.tag = l.tag ∧
      (I.alg.forceRun = false → scheduler.under I.alg.remoteName l.tag = [])
  | .done (some (ids, _)) _ => ids.length = I.payloads.length ∧ I.Submitted scheduler ids
  | .done none _ => True

theorem afterRun_eq : (I.alg.afterRun I.args : Phase Unit F C V α R) =
    I.alg.submit I.args I.commonTag [] I.payloads := by
  rw [RemoteAlgorithm.afterRun, I.coreRun_eq]
  simp only [I.generateTag_eq]

variable {I} {scheduler : Scheduler Unit F C}

theorem Submitted.mono {scheduler' : Scheduler Unit F C} {ids : List String}
    (h : I.Submitted scheduler ids) (hruns : ∀ run ∈ scheduler.runs, run ∈ scheduler'.runs) :
    I.Submitted scheduler' ids := by
  intro j p id hp hid
  obtain ⟨run, hrun, hspec⟩ := h j p id hp hid
  exact ⟨run, hruns run hrun, hspec⟩

theorem payload_eq {l : Submitting V α} (h : I.AtPayload scheduler l) :
    I.payloads[l.requestIds.length]? = some l.payload := by
  rw [← List.head?_drop, h.rest]
  rfl

/-- One more payload is submitted. -/
theorem Submitted.snoc {l : Submitting V α} (h : I.AtPayload scheduler l)
    {run : RemoteRun Unit F C} (hrun : run ∈ scheduler.runs)
    (hunder : run.Under I.alg.remoteName l.tag)
    (horigin : I.alg.forceRun = true → run.origin = some ((), l.requestIds.length)) :
    I.Submitted scheduler (l.requestIds ++ [run.id]) := by
  intro j p id hp hid
  by_cases hj : j < l.requestIds.length
  · rw [List.getElem?_append_left hj] at hid
    exact h.submitted j p id hp hid
  · obtain rfl : j = l.requestIds.length := by
      have hlt := (List.getElem?_eq_some_iff.mp hid).1
      rw [List.length_append, List.length_singleton] at hlt
      omega
    rw [payload_eq h] at hp
    rw [List.getElem?_concat_length] at hid
    obtain rfl := Option.some.inj hp
    obtain rfl := Option.some.inj hid
    exact ⟨run, hrun, rfl, h.tag ▸ hunder, horigin⟩

theorem phaseSound_create {l : Submitting V α} (parameters : Json F) (h : I.AtPayload scheduler l)
    (hnone : I.alg.forceRun = false → scheduler.under I.alg.remoteName l.tag = []) :
    I.PhaseSound scheduler (I.alg.create l parameters) :=
  create_rule parameters (fun _ => trivial) fun _ hname htag => ⟨h, hname, htag, hnone⟩

theorem phaseSound_submit {ids : List String} {rest : List α}
    (hrest : I.payloads.drop ids.length = rest) (hlength : ids.length ≤ I.payloads.length)
    (h : I.Submitted scheduler ids) :
    I.PhaseSound scheduler (I.alg.submit I.args I.commonTag ids rest) := by
  have hat : ∀ payload rest' tag, rest = payload :: rest' →
      I.alg.payloadTag I.args I.commonTag payload = .ok tag →
      I.AtPayload scheduler ⟨I.args, I.commonTag, ids, payload, tag, rest'⟩ := by
    intro payload rest' tag hcons htag
    have hmem : payload ∈ I.payloads :=
      List.mem_of_mem_drop (hrest ▸ hcons ▸ List.mem_cons_self : payload ∈ I.payloads.drop ids.length)
    rw [I.payloadTag_eq payload hmem] at htag
    exact ⟨rfl, rfl, hrest.trans hcons, (Except.ok.inj htag).symm, h⟩
  refine submit_rule I.args I.commonTag ids rest (fun _ => trivial) ?_ ?_ ?_
  · intro hnil r
    rw [hnil, List.drop_eq_nil_iff] at hrest
    exact ⟨by omega, h⟩
  · intro payload rest' tag parameters hcons htag hforce
    exact ⟨hat payload rest' tag hcons htag, hforce⟩
  · intro payload rest' tag hcons htag hforce request hname hreq
    exact ⟨hat payload rest' tag hcons htag, hname, hreq, fun hnot => by
      rw [hforce] at hnot
      cases hnot⟩

theorem phaseSound_next {l : Submitting V α} (h : I.AtPayload scheduler l)
    {run : RemoteRun Unit F C} (hrun : run ∈ scheduler.runs)
    (hunder : run.Under I.alg.remoteName l.tag)
    (horigin : I.alg.forceRun = true → run.origin = some ((), l.requestIds.length)) :
    I.PhaseSound scheduler (I.alg.next l run.id) := by
  have hlt : l.requestIds.length < I.payloads.length :=
    (List.getElem?_eq_some_iff.mp (payload_eq h)).1
  rw [RemoteAlgorithm.next, h.args, h.commonTag]
  refine phaseSound_submit ?_ ?_ (Submitted.snoc h hrun hunder horigin)
  · rw [List.length_append, List.length_singleton, ← List.drop_drop, h.rest]
    rfl
  · rw [List.length_append, List.length_singleton]
    omega

theorem phaseSound_describe {l : Submitting V α} {parameters : Json F}
    {described : List (Option (RemoteRun Unit F C))} {remaining : List String}
    (h : I.AtPayload scheduler l) (hforce : I.alg.forceRun = false)
    (hdescribed : ∀ run, some run ∈ described → run ∈ scheduler.under I.alg.remoteName l.tag)
    (hremaining : ∀ id ∈ remaining, ∃ run ∈ scheduler.under I.alg.remoteName l.tag, run.id = id)
    (hnone : described = [] → remaining = [] → scheduler.under I.alg.remoteName l.tag = []) :
    I.PhaseSound scheduler (I.alg.describe l parameters described remaining) := by
  refine describe_rule (fun _ => trivial) ?_ ?_ ?_
  · intro requestId rest hcons
    exact ⟨h, hforce, hdescribed, hcons ▸ hremaining⟩
  · intro run hrun
    obtain ⟨hmem, hunder⟩ := mem_under.mp (hdescribed run hrun)
    refine phaseSound_next h hmem hunder fun htrue => ?_
    rw [hforce] at htrue
    cases htrue
  · intro hnil hrest
    exact phaseSound_create parameters h fun _ => hnone hnil hrest

/-- Before a run is created under its tag, the payload is the first under it. -/
theorem first_of_under_nil (hsound : I.Sound scheduler) {l : Submitting V α}
    (h : I.AtPayload scheduler l) (hnone : scheduler.under I.alg.remoteName l.tag = []) :
    I.First l.requestIds.length l.payload := by
  have hnot : ∀ run ∈ scheduler.runs, ¬ run.Under I.alg.remoteName (I.tag l.payload) := by
    intro run hrun hunder
    have hmem : run ∈ scheduler.under I.alg.remoteName l.tag :=
      mem_under.mpr ⟨hrun, h.tag ▸ hunder⟩
    rw [hnone] at hmem
    cases hmem
  refine ⟨fun ⟨run, hrun, hunder⟩ => hnot run (hsound.existing run hrun) hunder, ?_⟩
  intro m q hm hq htag
  obtain ⟨id, hid⟩ : ∃ id, l.requestIds[m]? = some id := ⟨_, List.getElem?_eq_getElem hm⟩
  obtain ⟨run, hrun, -, hunder, -⟩ := h.submitted m q id hq hid
  exact hnot run hrun (htag ▸ hunder)

theorem sound_create (hsound : I.Sound scheduler) {scheduler' : Scheduler Unit F C}
    {l : Submitting V α} {request : RunRequest F C} {id : String} {receivedAt : Option String}
    (h : I.PhaseSound scheduler (.creating l request))
    (hcreate : scheduler.create ⟨request, id, receivedAt, some ((), l.requestIds.length)⟩ =
      some scheduler') :
    I.Sound scheduler' ∧ I.PhaseSound scheduler' (I.alg.next l id) := by
  obtain ⟨hat, hname, htag, hnone⟩ := h
  have hruns := runs_create hcreate
  have hmono : ∀ run ∈ scheduler.runs, run ∈ scheduler'.runs := by
    intro run hrun
    rw [hruns]
    exact List.mem_append_left _ hrun
  have hunder : (⟨request, id, receivedAt, some ((), l.requestIds.length)⟩ :
      RemoteRun Unit F C).Under I.alg.remoteName l.tag := ⟨hname, htag⟩
  have hat' : I.AtPayload scheduler' l :=
    ⟨hat.args, hat.commonTag, hat.rest, hat.tag, hat.submitted.mono hmono⟩
  refine ⟨⟨fun run hrun => hmono run (hsound.existing run hrun), ?_⟩, ?_⟩
  · intro run hrun
    rw [hruns, List.mem_append, List.mem_singleton] at hrun
    rcases hrun with hrun | rfl
    · exact hsound.created run hrun
    · exact .inr ⟨_, l.payload, rfl, payload_eq hat, hat.tag ▸ hunder,
        fun hforce => first_of_under_nil hsound hat (hnone hforce)⟩
  · have hnew : (⟨request, id, receivedAt, some ((), l.requestIds.length)⟩ :
        RemoteRun Unit F C) ∈ scheduler'.runs := by
      rw [hruns]
      exact List.mem_append_right _ (List.mem_singleton_self _)
    exact phaseSound_next hat' hnew hunder fun _ => rfl

theorem sound_transition (hsound : I.Sound scheduler) {scheduler' : Scheduler Unit F C}
    {phase phase' : Phase Unit F C V α R} (h : I.PhaseSound scheduler phase)
    (htransition : Transition I.alg () scheduler phase scheduler' phase') :
    I.Sound scheduler' ∧ I.PhaseSound scheduler' phase' := by
  cases htransition with
  | resolved kwargs results => cases h
  | ran args =>
    obtain rfl : args = I.args := h
    refine ⟨hsound, ?_⟩
    rw [afterRun_eq]
    exact phaseSound_submit rfl (Nat.zero_le _) fun j p id _ hid => by simp at hid
  | listed l parameters ids hids =>
    obtain ⟨hat, hforce⟩ := h
    refine ⟨hsound, phaseSound_describe hat hforce (by simp) ?_ ?_⟩
    · intro id hid
      exact List.mem_map.mp (hids.mem_iff.mp hid)
    · intro _ hnil
      rw [hnil] at hids
      exact List.map_eq_nil_iff.mp hids.nil_eq.symm
  | described l parameters described requestId remaining run hrun =>
    obtain ⟨hat, hforce, hdescribed, hremaining⟩ := h
    refine ⟨hsound, phaseSound_describe hat hforce ?_ ?_ (by simp)⟩
    · intro run' hrun'
      rcases List.mem_append.mp hrun' with hrun' | hlast
      · exact hdescribed run' hrun'
      · obtain rfl := List.mem_singleton.mp hlast
        obtain ⟨hmem, hid⟩ := find?_spec (hrun run' rfl)
        obtain ⟨run, hunder, hid'⟩ := hremaining requestId List.mem_cons_self
        rw [eq_of_id hmem (mem_under.mp hunder).1 (hid.trans hid'.symm)]
        exact hunder
    · exact fun id hid => hremaining id (List.mem_cons_of_mem requestId hid)
  | created l request id receivedAt scheduler' hcreate phase hphase =>
    obtain ⟨hsound', hnext⟩ := sound_create hsound h hcreate
    rcases hphase with rfl | ⟨e, rfl⟩
    · exact ⟨hsound', hnext⟩
    · exact ⟨hsound', trivial⟩
  | raised phase e => exact ⟨hsound, trivial⟩

theorem sound_step (s : Submissions Unit F C V α R) (move : Unit × Answer V)
    (h : I.Sound s.scheduler ∧ I.PhaseSound s.scheduler (s.phases ())) :
    I.Sound (s.step (fun _ => I.alg) move).scheduler ∧
      I.PhaseSound (s.step (fun _ => I.alg) move).scheduler
        ((s.step (fun _ => I.alg) move).phases ()) := by
  rcases step_cases (fun _ => I.alg) s move with heq | ⟨scheduler', phase', htrans, heq⟩
  · rw [heq]
    exact h
  · rw [heq]
    simp only [Function.update_self]
    exact sound_transition h.1 h.2 htrans

theorem sound_exec (σ : List (Unit × Answer V)) :
    I.Sound (I.exec σ).scheduler ∧ I.PhaseSound (I.exec σ).scheduler ((I.exec σ).phases ()) := by
  have hstart : (I.initial.step (fun _ => I.alg) ((), .resolves I.results)).phases () =
      .running I.args := by
    show afterResolve I.kwargs I.results = _
    rw [afterResolve, I.args_eq]
  refine run_invariant (I := fun s : Submissions Unit F C V α R =>
    I.Sound s.scheduler ∧ I.PhaseSound s.scheduler (s.phases ())) sound_step ⟨?_, ?_⟩ σ
  · exact ⟨fun run hrun => hrun, fun run hrun => .inl hrun⟩
  · rw [hstart]
    rfl

variable (I)

/-- The id is that of a run which existed under the payload's tag, unless runs are forced, or of the
run that was created for the payload. -/
def Kept (scheduler : Scheduler Unit F C) (i : Nat) (p : α) (id : String) : Prop :=
  (I.alg.forceRun = false ∧
    ∃ run ∈ I.existing.runs, run.id = id ∧ run.Under I.alg.remoteName (I.tag p)) ∨
    ∃ run ∈ scheduler.runs, run.id = id ∧ run.origin = some ((), i)

/-- Two payloads with one tag, under which no run existed. -/
def SharesFreshTag : Prop :=
  ∃ (i j : Nat) (p q : α), i < j ∧ I.payloads[i]? = some p ∧ I.payloads[j]? = some q ∧ I.tag p = I.tag q ∧
    ¬ I.Existed (I.tag p)

variable {I}

theorem kept_of_first (hsound : I.Sound scheduler) {j : Nat} {p : α} {id : String}
    {ids : List String} (hsub : I.Submitted scheduler ids) (hp : I.payloads[j]? = some p)
    (hid : ids[j]? = some id) (hfirst : I.alg.forceRun = true ∨ ¬ I.SharesFreshTag) :
    I.Kept scheduler j p id := by
  obtain ⟨run, hrun, rfl, hunder, horigin⟩ := hsub j p id hp hid
  cases hforce : I.alg.forceRun with
  | true => exact .inr ⟨run, hrun, rfl, horigin hforce⟩
  | false =>
    rcases hsound.created run hrun with hexisting | ⟨m, q, hm, hq, hunder', hfirst'⟩
    · exact .inl ⟨hforce, run, hexisting, rfl, hunder⟩
    · have htag : I.tag q = I.tag p := hunder'.2.symm.trans hunder.2
      have hnot : ¬ I.SharesFreshTag := hfirst.resolve_left (by simp [hforce])
      obtain ⟨hfresh, hbefore⟩ := hfirst' hforce
      rcases Nat.lt_trichotomy m j with hlt | rfl | hlt
      · exact absurd ⟨m, j, q, p, hlt, hq, hp, htag, hfresh⟩ hnot
      · exact .inr ⟨run, hrun, rfl, hm⟩
      · exact absurd htag.symm (hbefore j p hlt hp)

/-- Deduplication keeps every payload exactly if no two payloads share a tag under which no run
existed; forced runs keep every payload. -/
theorem no_payload_lost_iff (I : Invocation F C V α R) (σ : List (Unit × Answer V))
    (ids : List String) (tag : String) (result : Except PyExc R)
    (hdone : (I.exec σ).phases () = .done (some (ids, tag)) result) :
    ids.length = I.payloads.length ∧
      ((∀ i p id, I.payloads[i]? = some p → ids[i]? = some id →
          I.Kept (I.exec σ).scheduler i p id) ↔
        I.alg.forceRun = true ∨ ¬ I.SharesFreshTag) := by
  obtain ⟨hsound, hphase⟩ := sound_exec (I := I) σ
  rw [hdone] at hphase
  obtain ⟨hlength, hsub⟩ := hphase
  refine ⟨hlength, fun hkept => ?_, fun hfirst i p id hp hid =>
    kept_of_first hsound hsub hp hid hfirst⟩
  cases hforce : I.alg.forceRun with
  | true => exact .inl rfl
  | false =>
    refine .inr fun ⟨i, j, p, q, hlt, hp, hq, htag, hfresh⟩ => ?_
    obtain ⟨id, hid⟩ : ∃ id, ids[j]? = some id :=
      ⟨_, List.getElem?_eq_getElem (hlength ▸ (List.getElem?_eq_some_iff.mp hq).1)⟩
    rcases hkept j q id hq hid with ⟨-, run, hrun, -, hunder⟩ | ⟨run, hrun, -, horigin⟩
    · exact hfresh ⟨run, hrun, htag ▸ hunder⟩
    · rcases hsound.created run hrun with hexisting | ⟨m, q', hm, hq', -, hfirst⟩
      · rw [I.foreign run hexisting] at horigin
        cases horigin
      · rw [horigin] at hm
        obtain rfl : j = m := (Prod.mk.inj (Option.some.inj hm)).2
        rw [hq] at hq'
        obtain rfl := Option.some.inj hq'
        exact (hfirst hforce).2 i p hlt hp htag

end Invocation

/-! ### Two payloads under one tag -/

/-- An algorithm with two payloads and the default tags; none of its runs is forced. -/
def forecasts : RemoteAlgorithm {t : Json.FloatText // t.valid = true} Unit Unit Int (List String) where
  remoteName := "forecast"
  isHardDependency := false
  forceRun := false
  remoteConfig := none
  compressor := none
  compressPayload := false
  algorithmName := "planner"
  dryRun := false
  deserialize b := utf8Json.loads (.bytes b)
  toJson := counterType.toJson
  coreRun _ := .ok [1, 2]
  generateTag _ := .ok "nightly"
  generateTagFromRemotePayload _ _ := .ok none
  generateRemoteConfigFromRemotePayload _ _ := .ok none
  transformSubmissionResult requestIds _ := .ok requestIds

def forecastInvocation :
    Invocation {t : Json.FloatText // t.valid = true} Unit Unit Int (List String) where
  alg := forecasts
  existing := ⟨[], List.nodup_nil⟩
  kwargs := Dict.empty
  results := Dict.empty
  args := Dict.empty
  payloads := [1, 2]
  commonTag := "nightly"
  tag _ := "nightly"
  args_eq := rfl
  coreRun_eq := rfl
  generateTag_eq := rfl
  payloadTag_eq _ _ := rfl
  foreign := by simp

theorem prepare_forecasts (i : Int) :
    forecasts.prepare Dict.empty "nightly" i =
      .ok ("nightly", .obj [(Json.units "x", .int i)]) := by
  have hloads := JsonModule.loads_toUTF8 (utf8Json.loads_dumps (wf_counter i))
  show (utf8Json.loads (.bytes (utf8Json.dumps _).toUTF8)).bind _ = _
  rw [hloads]
  rfl

def forecastAnswers : List (Unit × Answer Unit) :=
  [((), .ends), ((), .lists []), ((), .creates "run-1" none), ((), .lists ["run-1"]),
    ((), .describes)]

/-- The submission of a payload, after those with the ids. -/
def forecastLoop (ids : List String) (i : Int) (rest : List Int) : Submitting Unit Int :=
  ⟨Dict.empty, "nightly", ids, i, "nightly", rest⟩

def forecastParameters (i : Int) : Json {t : Json.FloatText // t.valid = true} :=
  .obj [(Json.units "x", .int i)]

def forecastRequest (i : Int) : RunRequest {t : Json.FloatText // t.valid = true} Unit where
  algorithmParameters := forecastParameters i
  algorithmName := "forecast"
  customConfiguration := none
  parentRequest := none
  tag := "nightly"
  dryRun := false

theorem submit_forecasts {ι : Type} (ids : List String) (i : Int) (rest : List Int) :
    (forecasts.submit Dict.empty "nightly" ids (i :: rest) :
      Phase ι _ Unit Unit Int (List String)) =
      .lookingUp (forecastLoop ids i rest) (forecastParameters i) := by
  rw [RemoteAlgorithm.submit, prepare_forecasts]
  rfl

section Resume

variable {ι : Type} (k : ι) (scheduler : Scheduler ι {t : Json.FloatText // t.valid = true} Unit)

theorem resume_resolving : forecasts.resume k scheduler (.resolving Dict.empty)
    (.resolves Dict.empty) = some (scheduler, .running Dict.empty) := rfl

theorem resume_running : forecasts.resume k scheduler (.running Dict.empty) .ends =
    some (scheduler, .lookingUp (forecastLoop [] 1 [2]) (forecastParameters 1)) := by
  show some (scheduler, forecasts.afterRun Dict.empty) = _
  rw [RemoteAlgorithm.afterRun]
  exact congrArg (fun phase => some (scheduler, phase)) (submit_forecasts [] 1 [2])

variable {scheduler}

theorem resume_lookingUp (hnone : scheduler.under "forecast" "nightly" = []) (ids : List String)
    (i : Int) (rest : List Int) :
    forecasts.resume k scheduler (.lookingUp (forecastLoop ids i rest) (forecastParameters i))
      (.lists []) = some (scheduler, .creating (forecastLoop ids i rest) (forecastRequest i)) := by
  have hperm : ([] : List String).Perm
      ((scheduler.under forecasts.remoteName (forecastLoop ids i rest).tag).map RemoteRun.id) := by
    rw [show scheduler.under forecasts.remoteName (forecastLoop ids i rest).tag = [] from hnone]
    exact .nil
  rw [RemoteAlgorithm.resume, if_pos hperm]
  rfl

theorem resume_creating {scheduler' : Scheduler ι {t : Json.FloatText // t.valid = true} Unit}
    {ids : List String} {i j : Int} {rest : List Int} {id : String}
    (hcreate : scheduler.create ⟨forecastRequest i, id, none, some (k, ids.length)⟩ =
      some scheduler') :
    forecasts.resume k scheduler (.creating (forecastLoop ids i (j :: rest)) (forecastRequest i))
      (.creates id none) =
      some (scheduler', .lookingUp (forecastLoop (ids ++ [id]) j rest) (forecastParameters j)) := by
  show (scheduler.create ⟨forecastRequest i, id, none, some (k, ids.length)⟩).map _ = _
  rw [hcreate]
  exact congrArg (fun phase => some (scheduler', phase)) (submit_forecasts (ids ++ [id]) j rest)

end Resume

/-- The run of the first payload, and the scheduler with it. -/
def forecastRun : RemoteRun Unit {t : Json.FloatText // t.valid = true} Unit :=
  ⟨forecastRequest 1, "run-1", none, some ((), 0)⟩

def forecastScheduler : Scheduler Unit {t : Json.FloatText // t.valid = true} Unit :=
  ⟨[forecastRun], List.nodup_singleton _⟩

theorem step_of_resume {F C V α R : Type} {alg : RemoteAlgorithm F C V α R}
    {scheduler scheduler' : Scheduler Unit F C} {phase phase' : Phase Unit F C V α R}
    {answer : Answer V} (h : alg.resume () scheduler phase answer = some (scheduler', phase')) :
    Submissions.step (fun _ => alg) ⟨scheduler, fun _ => phase⟩ ((), answer) =
      ⟨scheduler', fun _ => phase'⟩ := by
  simp only [Submissions.step, h]
  exact congrArg (Submissions.mk scheduler') (funext fun _ => Function.update_self _ _ _)

theorem exec_forecasts : forecastInvocation.exec forecastAnswers =
    ⟨forecastScheduler, fun _ =>
      .done (some (["run-1", "run-1"], "nightly")) (.ok ["run-1", "run-1"])⟩ := by
  have hcreate : Scheduler.create ⟨[], List.nodup_nil⟩ forecastRun = some forecastScheduler := rfl
  have hfound : forecasts.resume () forecastScheduler
      (.lookingUp (forecastLoop ["run-1"] 2 []) (forecastParameters 2)) (.lists ["run-1"]) =
      some (forecastScheduler,
        .describing (forecastLoop ["run-1"] 2 []) (forecastParameters 2) [] "run-1" []) := rfl
  have hdescribed : forecasts.resume () forecastScheduler
      (.describing (forecastLoop ["run-1"] 2 []) (forecastParameters 2) [] "run-1" []) .describes =
      some (forecastScheduler,
        .done (some (["run-1", "run-1"], "nightly")) (.ok ["run-1", "run-1"])) := rfl
  show run (Submissions.step fun _ => forecasts) ⟨⟨[], List.nodup_nil⟩, fun _ =>
    .resolving Dict.empty⟩ (((), .resolves Dict.empty) :: forecastAnswers) = _
  rw [forecastAnswers, run_cons, step_of_resume (resume_resolving () _), run_cons,
    step_of_resume (resume_running () _), run_cons, step_of_resume (resume_lookingUp () rfl [] 1 [2]),
    run_cons, step_of_resume (resume_creating () hcreate), run_cons]
  rw [List.nil_append, step_of_resume hfound, run_cons, step_of_resume hdescribed, run_nil]

theorem no_payload_lost_iff_forecasts :
    ["run-1", "run-1"].length = forecastInvocation.payloads.length ∧
      ((∀ i p id, forecastInvocation.payloads[i]? = some p → ["run-1", "run-1"][i]? = some id →
          forecastInvocation.Kept (forecastInvocation.exec forecastAnswers).scheduler i p id) ↔
        forecastInvocation.alg.forceRun = true ∨ ¬ forecastInvocation.SharesFreshTag) :=
  Invocation.no_payload_lost_iff forecastInvocation forecastAnswers ["run-1", "run-1"] "nightly"
    (.ok ["run-1", "run-1"]) (by rw [exec_forecasts])

/-- The second payload is submitted as the run that was created for the first. -/
theorem second_forecast_lost :
    (forecastInvocation.exec forecastAnswers).phases () =
        .done (some (["run-1", "run-1"], "nightly")) (.ok ["run-1", "run-1"]) ∧
      forecastInvocation.payloads[1]? = some 2 ∧
      ¬ forecastInvocation.Kept (forecastInvocation.exec forecastAnswers).scheduler 1 2 "run-1" := by
  rw [exec_forecasts]
  refine ⟨rfl, rfl, ?_⟩
  rintro (⟨-, run, hrun, -⟩ | ⟨run, hrun, -, horigin⟩)
  · cases hrun
  · obtain rfl := List.mem_singleton.mp hrun
    cases horigin

end NexusSdk.Algorithms
